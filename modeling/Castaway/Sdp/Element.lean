import Castaway.Lib.Result
import Castaway.Lib.Utf8
import Castaway.Sdp.Uuid

/-!
# SDP data elements

The self-describing encoding every record is built from: a header byte of a type
and a size index, a length for the variable sizes, and the body.  Sequences
nest, and the nesting of what is read is the peer's choice.

Subtraction, shifting and indexing are checked.  Where they would go wrong, or
where a loop or the stack would run out, the computation ends in a `Fault`,
which is not one of the errors the decoder returns.  A `usize` has 64 bits.
-/

namespace Castaway.Sdp

/-- Failures parsing SDP. -/
inductive SdpError
  | truncated (what : String) (need present : ℕ)
  | badElement (what : String) (detail : ℕ)
  | unsupportedPdu (id : UInt8)
  | continuationTooLong (length : ℕ)
  | tooDeep (limit : ℕ)
deriving DecidableEq, Repr

/-- What a checked program stops at. -/
inductive Fault
  | index
  | underflow
  | shift
  | recursion
  | loop
deriving DecidableEq, Repr

/-- Why a computation has no value. -/
inductive Stop
  | fault (f : Fault)
  | error (e : SdpError)
deriving DecidableEq, Repr

abbrev Result (α : Type) := Except Stop α

/-! ## Checked operations -/

/-- `buf[i]`. -/
def index (buf : Bytes) (i : ℕ) : Result UInt8 :=
  match buf[i]? with
  | some b => .ok b
  | none => .error (.fault .index)

/-- `&buf[first..last]`. -/
def slice (buf : Bytes) (first last : ℕ) : Result Bytes :=
  if first ≤ last ∧ last ≤ buf.length then .ok ((buf.drop first).take (last - first))
  else .error (.fault .index)

/-- `&buf[first..]`. -/
def sliceFrom (buf : Bytes) (first : ℕ) : Result Bytes :=
  if first ≤ buf.length then .ok (buf.drop first) else .error (.fault .index)

/-- `m - n`. -/
def subtract (m n : ℕ) : Result ℕ :=
  if n ≤ m then .ok (m - n) else .error (.fault .underflow)

/-- `x << n` on 64 bits. -/
def shiftLeft (x : UInt64) (n : ℕ) : Result UInt64 :=
  if n < 64 then .ok (x <<< UInt64.ofNat n) else .error (.fault .shift)

/-! ## Elements -/

inductive DataElement
  | nil
  | uint (v : UInt64)
  | uint32 (v : UInt32)
  | uint16 (v : UInt16)
  | int (v : Int64)
  | uuid (u : Uuid)
  | text (s : String)
  | bool (b : Bool)
  | sequence (items : List DataElement)
  | alternative (items : List DataElement)
  | url (s : String)

/-! The type of an element is a number of five bits. -/

def typeNil : UInt8 := 0
def typeUint : UInt8 := 1
def typeInt : UInt8 := 2
def typeUuid : UInt8 := 3
def typeText : UInt8 := 4
def typeBool : UInt8 := 5
def typeSequence : UInt8 := 6
def typeAlternative : UInt8 := 7
def typeUrl : UInt8 := 8

/-- How deep nested sequences may go before a decode is refused. -/
def maxDepth : ℕ := 16

/-! ## Encoding -/

def headerByte (kind sizeIndex : UInt8) : UInt8 := (kind <<< 3) ||| sizeIndex

/-- An unsigned integer in the smallest width that holds it. -/
def putUint (v : UInt64) : Bytes :=
  if v.toNat < 256 then headerByte typeUint 0 :: beBytes 1 v.toNat
  else if v.toNat < 65536 then headerByte typeUint 1 :: beBytes 2 v.toNat
  else if v.toNat < 4294967296 then headerByte typeUint 2 :: beBytes 4 v.toNat
  else headerByte typeUint 3 :: beBytes 8 v.toNat

/-- Whether a signed integer fits in `width` bytes. -/
def fitsSigned (width : ℕ) (v : Int64) : Bool :=
  decide (-(2 ^ (8 * width - 1) : ℤ) ≤ v.toInt) && decide (v.toInt < 2 ^ (8 * width - 1))

/-- A signed integer in the smallest width that holds it. -/
def putInt (v : Int64) : Bytes :=
  if fitsSigned 1 v then headerByte typeInt 0 :: beBytes 1 v.toUInt64.toNat
  else if fitsSigned 2 v then headerByte typeInt 1 :: beBytes 2 v.toUInt64.toNat
  else if fitsSigned 4 v then headerByte typeInt 2 :: beBytes 4 v.toUInt64.toNat
  else headerByte typeInt 3 :: beBytes 8 v.toUInt64.toNat

def putUuid (u : Uuid) : Bytes :=
  match u.width with
  | .short => headerByte typeUuid 1 :: beBytes 2 (u.asShort.getD 0).toNat
  | .medium => headerByte typeUuid 2 :: u.bytes.take 4
  | .long => headerByte typeUuid 4 :: u.bytes

/-- A body behind its explicit length, which is `u16::MAX` for one that is too
long. -/
def putString (kind : UInt8) (body : Bytes) : Bytes :=
  if body.length < 256 then headerByte kind 5 :: beBytes 1 body.length ++ body
  else headerByte kind 6 :: beBytes 2 (min body.length 65535) ++ body

mutual

def DataElement.encode : DataElement → Bytes
  | .nil => [headerByte typeNil 0]
  | .uint v => putUint v
  | .uint16 v => headerByte typeUint 1 :: beBytes 2 v.toNat
  | .uint32 v => headerByte typeUint 2 :: beBytes 4 v.toNat
  | .int v => putInt v
  | .uuid u => putUuid u
  | .bool b => [headerByte typeBool 0, if b then 1 else 0]
  | .text s => putString typeText (utf8 s)
  | .url s => putString typeUrl (utf8 s)
  -- `put_container` writes its length as `put_string` does
  | .sequence items => putString typeSequence (DataElement.encodeAll items)
  | .alternative items => putString typeAlternative (DataElement.encodeAll items)

def DataElement.encodeAll : List DataElement → Bytes
  | [] => []
  | item :: items => DataElement.encode item ++ DataElement.encodeAll items

end

/-! ## Decoding -/

/-- Look at a byte of an explicit length, `at` in the source. -/
def atIndex (buf : Bytes) (i : ℕ) : Result UInt8 :=
  match buf[i]? with
  | some b => .ok b
  | none => .error (.error (.truncated "data element length" (i + 1) buf.length))

/-- Split an element's header into its type, its length and the body's length.
-/
def splitHeader (buf : Bytes) : Result (UInt8 × ℕ × ℕ) :=
  match buf with
  | [] => .error (.error (.truncated "data element header" 1 0))
  | header :: _ =>
    let kind := header >>> 3
    match (header &&& 0x07).toNat with
    | 0 => .ok (kind, 1, if kind = typeNil then 0 else 1)
    | 1 => .ok (kind, 1, 2)
    | 2 => .ok (kind, 1, 4)
    | 3 => .ok (kind, 1, 8)
    | 4 => .ok (kind, 1, 16)
    | 5 => do
        let b₁ ← atIndex buf 1
        return (kind, 2, b₁.toNat)
    | 6 => do
        let b₁ ← atIndex buf 1
        let b₂ ← atIndex buf 2
        return (kind, 3, beNat [b₁, b₂])
    | _ => do
        let b₁ ← atIndex buf 1
        let b₂ ← atIndex buf 2
        let b₃ ← atIndex buf 3
        let b₄ ← atIndex buf 4
        return (kind, 5, beNat [b₁, b₂, b₃, b₄])

/-- The unsigned number of a body; of a long one, that of its last eight bytes.
-/
def beUint (body : Bytes) : UInt64 :=
  body.foldl (fun acc b => (acc <<< 8) ||| b.toUInt64) 0

def beInt (body : Bytes) : Result Int64 := do
  let raw := beUint body
  let bits := body.length * 8
  if bits < 64 then
    let top ← subtract bits 1
    let sign ← shiftLeft 1 top
    if raw &&& sign ≠ 0 then
      let modulus ← shiftLeft 1 bits
      return (raw - modulus).toInt64
    else return raw.toInt64
  else return raw.toInt64

def decodeUuid (body : Bytes) : Result DataElement :=
  if body.length = 2 then do
    let b₀ ← index body 0
    let b₁ ← index body 1
    return .uuid (Uuid.short (UInt16.ofNat (beNat [b₀, b₁])))
  else if body.length = 4 then do
    let b₀ ← index body 0
    let b₁ ← index body 1
    let b₂ ← index body 2
    let b₃ ← index body 3
    return .uuid (Uuid.medium (UInt32.ofNat (beNat [b₀, b₁, b₂, b₃])))
  else if h : body.length = 16 then return .uuid (Uuid.long body h)
  else .error (.error (.badElement "uuid width" body.length))

/-- The elements of a container's body, one after the other.  Every turn of the
loop takes a byte at least, so `body.length` turns are enough. -/
def decodeItems (decode : Bytes → Result (DataElement × ℕ)) :
    ℕ → Bytes → Result (List DataElement)
  | _, [] => .ok []
  | 0, _ :: _ => .error (.fault .loop)
  | turns + 1, b :: rest => do
      let (item, used) ← decode (b :: rest)
      let rest ← sliceFrom (b :: rest) used
      let items ← decodeItems decode turns rest
      return item :: items

/-- The element of a type and a body.  `decode` reads one element nested in it.
-/
def decodeBody (decode : Bytes → Result (DataElement × ℕ)) (kind : UInt8) (body : Bytes) :
    Result DataElement :=
  if kind = typeNil then .ok .nil
  else if kind = typeUint then .ok (.uint (beUint body))
  else if kind = typeInt then do return .int (← beInt body)
  else if kind = typeUuid then decodeUuid body
  else if kind = typeText then .ok (.text (fromUtf8Lossy body))
  else if kind = typeUrl then .ok (.url (fromUtf8Lossy body))
  else if kind = typeBool then .ok (.bool (body.head?.any (· ≠ 0)))
  else if kind = typeSequence ∨ kind = typeAlternative then do
    let items ← decodeItems decode body.length body
    if kind = typeSequence then return .sequence items
    else return .alternative items
  else .error (.error (.badElement "element type" kind.toNat))

/-- Decode one element at some depth, on a stack that has room for `levels` more
calls.  Its header is split the way `splitHeader` splits it. -/
def decodeAt : (levels depth : ℕ) → Bytes → Result (DataElement × ℕ)
  | 0, _, _ => .error (.fault .recursion)
  | levels + 1, depth, buf =>
    if depth > maxDepth then .error (.error (.tooDeep maxDepth))
    else do
      let (kind, headerLen, bodyLen) ← splitHeader buf
      let total := headerLen + bodyLen
      if buf.length < total then
        .error (.error (.truncated "data element body" total buf.length))
      else do
        let body ← slice buf headerLen total
        let element ← decodeBody (decodeAt levels (depth + 1)) kind body
        return (element, total)

/-- Decode one element, with the bytes it took.  The stack has room for the call
itself and for `maxDepth + 1` levels below it. -/
def DataElement.decode (buf : Bytes) : Result (DataElement × ℕ) := decodeAt (maxDepth + 2) 0 buf

/-! ## Accessors -/

def DataElement.asSequence : DataElement → Option (List DataElement)
  | .sequence items => some items
  | .alternative items => some items
  | _ => none

def DataElement.asUuid : DataElement → Option Uuid
  | .uuid u => some u
  | _ => none

end Castaway.Sdp
