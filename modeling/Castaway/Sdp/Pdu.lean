import Castaway.Sdp.Element

/-!
# SDP transaction PDUs

A PDU is an identifier, a transaction id, a length and its parameters.  What a
peer asks for and what it is answered are written and read here, with every
slice and every index checked.
-/

namespace Castaway.Sdp

/-! ## Framing -/

def frame (id : UInt8) (tid : UInt16) (params : Bytes) : Bytes :=
  id :: beBytes 2 tid.toNat ++ beBytes 2 (min params.length 65535) ++ params

def u16At (buf : Bytes) (i : ℕ) : Result ℕ := do
  let b₀ ← index buf i
  let b₁ ← index buf (i + 1)
  return beNat [b₀, b₁]

def u32At (buf : Bytes) (i : ℕ) : Result ℕ := do
  let b₀ ← index buf i
  let b₁ ← index buf (i + 1)
  let b₂ ← index buf (i + 2)
  let b₃ ← index buf (i + 3)
  return beNat [b₀, b₁, b₂, b₃]

def unframe (buf : Bytes) : Result (UInt8 × UInt16 × Bytes) :=
  if buf.length < 5 then .error (.error (.truncated "sdp pdu header" 5 buf.length))
  else do
    let id ← index buf 0
    let tid ← u16At buf 1
    let len ← u16At buf 3
    if buf.length < 5 + len then
      .error (.error (.truncated "sdp pdu body" (5 + len) buf.length))
    else do
      let params ← slice buf 5 (5 + len)
      return (id, UInt16.ofNat tid, params)

/-- The 16-bit number at the front of some bytes. -/
def beU16 (buf : Bytes) (what : String) : Result ℕ :=
  if buf.length < 2 then .error (.error (.truncated what 2 buf.length)) else u16At buf 0

/-! ## Continuation state -/

/-- An opaque token the server issues to resume a long response. -/
structure Continuation where
  token : Bytes
deriving DecidableEq, Repr

namespace Continuation

/-- Write the token behind its length, which is 0 for one that is too long for
it. -/
def encode (c : Continuation) : Bytes :=
  UInt8.ofNat (if c.token.length < 256 then c.token.length else 0) :: c.token

def decode (buf : Bytes) : Result (Continuation × ℕ) :=
  match buf with
  | [] => .error (.error (.truncated "continuation length" 1 0))
  | b :: _ =>
    let len := b.toNat
    if len > 16 then .error (.error (.continuationTooLong len))
    else if buf.length < 1 + len then
      .error (.error (.truncated "continuation state" (1 + len) buf.length))
    else do
      let token ← slice buf 1 (1 + len)
      return (⟨token⟩, 1 + len)

end Continuation

/-! ## Attribute id lists -/

/-- One entry in an attribute id list. -/
inductive AttributeRange
  | single (id : UInt16)
  | range (lo hi : UInt16)
deriving DecidableEq, Repr

/-- The bytes of an entry.  Its width tells a single id from a range. -/
def AttributeRange.encode : AttributeRange → Bytes
  | .single id => headerByte 1 1 :: beBytes 2 id.toNat
  | .range lo hi => headerByte 1 2 :: beBytes 2 lo.toNat ++ beBytes 2 hi.toNat

def attributeList (ranges : List AttributeRange) : Bytes :=
  putString typeSequence (ranges.flatMap AttributeRange.encode)

def attributeEntry (body : Bytes) (width : ℕ) : Result (Option AttributeRange) :=
  if width = 2 then do
    let id ← u16At body 0
    return some (.single (UInt16.ofNat id))
  else if width = 4 then do
    let lo ← u16At body 0
    let hi ← u16At body 2
    return some (.range (UInt16.ofNat lo) (UInt16.ofNat hi))
  -- one odd entry does not cost the peer the whole query
  else return none

/-- The entries of a list's body.  Every turn of the loop takes a byte at least,
so `body.length` turns are enough. -/
def decodeEntries : ℕ → Bytes → Result (List AttributeRange)
  | _, [] => .ok []
  | 0, _ :: _ => .error (.fault .loop)
  | turns + 1, b :: rest => do
      let (_, hl, bl) ← splitHeader (b :: rest)
      if (b :: rest).length < hl + bl then
        .error (.error (.truncated "attribute id entry" (hl + bl) (b :: rest).length))
      else do
        let body ← slice (b :: rest) hl (hl + bl)
        let entry ← attributeEntry body bl
        let rest ← sliceFrom (b :: rest) (hl + bl)
        let entries ← decodeEntries turns rest
        return entry.toList ++ entries

def decodeAttributeList (buf : Bytes) : Result (List AttributeRange × ℕ) := do
  let (_, headerLen, bodyLen) ← splitHeader buf
  let total := headerLen + bodyLen
  if buf.length < total then
    .error (.error (.truncated "attribute id list" total buf.length))
  else do
    let body ← slice buf headerLen total
    let entries ← decodeEntries body.length body
    return (entries, total)

def uuids (e : DataElement) : List Uuid :=
  match e.asSequence with
  | some items => items.filterMap DataElement.asUuid
  | none => []

/-! ## Requests -/

inductive SdpRequest
  | serviceSearch (tid : UInt16) (patterns : List Uuid) (maxRecords : UInt16)
      (cont : Continuation)
  | serviceAttribute (tid : UInt16) (handle : UInt32) (maxBytes : UInt16)
      (attributes : List AttributeRange) (cont : Continuation)
  | serviceSearchAttribute (tid : UInt16) (patterns : List Uuid) (maxBytes : UInt16)
      (attributes : List AttributeRange) (cont : Continuation)
deriving DecidableEq

namespace SdpRequest

/-- The transaction id, which the response must echo. -/
def tid : SdpRequest → UInt16
  | serviceSearch tid .. => tid
  | serviceAttribute tid .. => tid
  | serviceSearchAttribute tid .. => tid

def id : SdpRequest → UInt8
  | serviceSearch .. => 0x02
  | serviceAttribute .. => 0x04
  | serviceSearchAttribute .. => 0x06

def pattern (patterns : List Uuid) : DataElement := .sequence (patterns.map .uuid)

def params : SdpRequest → Bytes
  | serviceSearch _ patterns maxRecords cont =>
    (pattern patterns).encode ++ beBytes 2 maxRecords.toNat ++ cont.encode
  | serviceAttribute _ handle maxBytes attributes cont =>
    beBytes 4 handle.toNat ++ beBytes 2 maxBytes.toNat ++ attributeList attributes ++ cont.encode
  | serviceSearchAttribute _ patterns maxBytes attributes cont =>
    (pattern patterns).encode ++ beBytes 2 maxBytes.toNat ++ attributeList attributes ++
      cont.encode

def encode (request : SdpRequest) : Bytes := frame request.id request.tid request.params

def decode (buf : Bytes) : Result SdpRequest := do
  let (id, tid, params) ← unframe buf
  if id = 0x02 then do
    let (pattern, used) ← DataElement.decode params
    let rest ← sliceFrom params used
    let maxRecords ← beU16 rest "max record count"
    let rest ← sliceFrom rest 2
    let (cont, _) ← Continuation.decode rest
    return serviceSearch tid (uuids pattern) (UInt16.ofNat maxRecords) cont
  else if id = 0x04 then
    if params.length < 6 then
      .error (.error (.truncated "service attribute request" 6 params.length))
    else do
      let handle ← u32At params 0
      let maxBytes ← u16At params 4
      let rest ← sliceFrom params 6
      let (attributes, used) ← decodeAttributeList rest
      let rest ← sliceFrom params (6 + used)
      let (cont, _) ← Continuation.decode rest
      return serviceAttribute tid (UInt32.ofNat handle) (UInt16.ofNat maxBytes) attributes cont
  else if id = 0x06 then do
    let (pattern, used) ← DataElement.decode params
    let rest ← sliceFrom params used
    let maxBytes ← beU16 rest "max attribute byte count"
    let list ← sliceFrom rest 2
    let (attributes, used₂) ← decodeAttributeList list
    let rest ← sliceFrom rest (2 + used₂)
    let (cont, _) ← Continuation.decode rest
    return serviceSearchAttribute tid (uuids pattern) (UInt16.ofNat maxBytes) attributes cont
  else .error (.error (.unsupportedPdu id))

end SdpRequest

/-! ## Responses -/

inductive SdpResponse
  | error (tid code : UInt16)
  | serviceSearch (tid total : UInt16) (handles : List UInt32) (cont : Continuation)
  | serviceAttribute (tid : UInt16) (attributes : Bytes) (cont : Continuation)
  | serviceSearchAttribute (tid : UInt16) (lists : Bytes) (cont : Continuation)
deriving DecidableEq

namespace SdpResponse

def tid : SdpResponse → UInt16
  | error tid _ => tid
  | serviceSearch tid .. => tid
  | serviceAttribute tid .. => tid
  | serviceSearchAttribute tid .. => tid

def id : SdpResponse → UInt8
  | error .. => 0x01
  | serviceSearch .. => 0x03
  | serviceAttribute .. => 0x05
  | serviceSearchAttribute .. => 0x07

def params : SdpResponse → Bytes
  | error _ code => beBytes 2 code.toNat
  | serviceSearch _ total handles cont =>
    beBytes 2 total.toNat ++ beBytes 2 (min handles.length 65535) ++
      handles.flatMap (fun h => beBytes 4 h.toNat) ++ cont.encode
  | serviceAttribute _ attributes cont =>
    beBytes 2 (min attributes.length 65535) ++ attributes ++ cont.encode
  | serviceSearchAttribute _ lists cont =>
    beBytes 2 (min lists.length 65535) ++ lists ++ cont.encode

def encode (response : SdpResponse) : Bytes := frame response.id response.tid response.params

/-- One of the handles behind the two counts of a search response. -/
def handleAt (params : Bytes) (i : ℕ) : Result UInt32 := do
  let handle ← u32At params (4 + i * 4)
  return UInt32.ofNat handle

def decode (buf : Bytes) : Result SdpResponse := do
  let (id, tid, params) ← unframe buf
  if id = 0x01 then do
    let code ← beU16 params "error code"
    return error tid (UInt16.ofNat code)
  else if id = 0x03 then do
    let total ← beU16 params "total record count"
    let counted ← sliceFrom params 2
    let n ← beU16 counted "current record count"
    if params.length < 4 + n * 4 then
      .error (.error (.truncated "service search handles" (4 + n * 4) params.length))
    else do
      let handles ← (List.range n).mapM (handleAt params)
      let rest ← sliceFrom params (4 + n * 4)
      let (cont, _) ← Continuation.decode rest
      return serviceSearch tid (UInt16.ofNat total) handles cont
  else if id = 0x05 ∨ id = 0x07 then do
    let count ← beU16 params "attribute byte count"
    if params.length < 2 + count then
      .error (.error (.truncated "attribute list" (2 + count) params.length))
    else do
      let body ← slice params 2 (2 + count)
      let rest ← sliceFrom params (2 + count)
      let (cont, _) ← Continuation.decode rest
      if id = 0x05 then return serviceAttribute tid body cont
      else return serviceSearchAttribute tid body cont
  else .error (.error (.unsupportedPdu id))

end SdpResponse

end Castaway.Sdp
