import Castaway.Bluetooth.Codec
import Castaway.Bluetooth.ImageProperties
import Castaway.Lib.Utf8

/-!
# The cover-art session

Packets of OBEX, and one session to a peer's image server.  A session is asked
for one object at a time.  The first request for an object offers single
response mode; whoever grants it sends the rest of the object unasked, and
whoever does not has every further chunk asked for.

`feed` takes the response packets, and `nextRequest` says what there is to send;
handing out a request changes the session.
-/

namespace Castaway.Bluetooth

open Castaway.AirPlay (Text)

/-! ## Packets -/

/-- A header.  The contents of the others are never read, so these stand as they
came. -/
inductive Header where
  | imageHandle (handle : Text)
  | type (mime : String)
  | imageDescription (descriptor : Text)
  | body (chunk : Bytes)
  | endOfBody (chunk : Bytes)
  | target (uuid : Bytes)
  | connectionId (id : UInt32)
  | singleResponseMode (mode : UInt8)
  | other (id : UInt8) (value : Bytes)
  deriving DecidableEq

/-- The value that enables single response mode. -/
def srmEnable : UInt8 := 0x01

/-- A 16-bit length, cut off at the largest. -/
def putLength (n : ℕ) : Bytes := beBytes 2 (if n < 65536 then n else 65535)

def putBytes (id : UInt8) (value : Bytes) : Bytes := id :: (putLength (3 + value.length) ++ value)

/-- The UTF-16 code units of a character. -/
def utf16 (c : Char) : List ℕ :=
  if c.toNat < 0x10000 then [c.toNat]
  else [0xD800 + (c.toNat - 0x10000) / 0x400, 0xDC00 + (c.toNat - 0x10000) % 0x400]

/-- Text in big-endian UTF-16, with a zero behind it. -/
def putUnicode (id : UInt8) (t : Text) : Bytes :=
  putBytes id ((t.flatMap utf16).flatMap (beBytes 2) ++ [0, 0])

namespace Header

def encode : Header → Bytes
  | imageHandle handle => putUnicode 0x30 handle
  | imageDescription descriptor => putBytes 0x71 (descriptor.flatMap String.utf8EncodeChar)
  | type mime => putBytes 0x42 (utf8 mime ++ [0])
  | body chunk => putBytes 0x48 chunk
  | endOfBody chunk => putBytes 0x49 chunk
  | target uuid => putBytes 0x46 uuid
  | connectionId id => 0xCB :: beBytes 4 id.toNat
  | singleResponseMode mode => [0x97, mode]
  | other id value =>
    if id < 0x80 then putBytes id value
    else if id < 0xC0 then [id, value.headD 0]
    else id :: (value ++ [0, 0, 0, 0]).take 4

def ofValue (id : UInt8) (value : Bytes) : Header :=
  if id = 0x48 then body value
  else if id = 0x49 then endOfBody value
  else if id = 0x46 then target value
  else if id = 0xCB then connectionId (UInt32.ofNat (beNat value))
  else if id = 0x97 then singleResponseMode (value.headD 0)
  else other id value

/-- One header, and how many bytes it takes.  The top two bits of its id say how
wide its value is. -/
def decode (id : UInt8) (buf : Bytes) : Except AudioError (Bytes × ℕ) :=
  if id < 0x80 then
    if buf.length < 3 then .error (.truncated "obex header length" 3 buf.length)
    else
      let len := beNat ((buf.drop 1).take 2)
      if len < 3 ∨ buf.length < len then
        .error (.truncated "obex header value" (max len 3) buf.length)
      else .ok ((buf.take len).drop 3, len)
  else if id < 0xC0 then
    if buf.length < 2 then .error (.truncated "obex byte header" 2 buf.length)
    else .ok ((buf.take 2).drop 1, 2)
  else
    if buf.length < 5 then .error (.truncated "obex quad header" 5 buf.length)
    else .ok ((buf.take 5).drop 1, 5)

/-- Every header of a buffer.  No header is without bytes, so there are no more
of them than that. -/
def decodeFrom : ℕ → Bytes → Except AudioError (List Header)
  | _, [] => .ok []
  | 0, _ :: _ => .ok []
  | fuel + 1, id :: rest => do
      let (value, used) ← decode id (id :: rest)
      let headers ← decodeFrom fuel ((id :: rest).drop used)
      return ofValue id value :: headers

def decodeAll (buf : Bytes) : Except AudioError (List Header) := decodeFrom buf.length buf

end Header

/-- One packet.  Only that of CONNECT has fields before its headers. -/
structure ObexPacket where
  code : UInt8
  fields : Bytes
  headers : List Header
  deriving DecidableEq

namespace ObexPacket

def encode (packet : ObexPacket) : Bytes :=
  let body := packet.fields ++ packet.headers.flatMap Header.encode
  packet.code :: (putLength (3 + body.length) ++ body)

def decode (buf : Bytes) (fieldsLen : ℕ) : Except AudioError ObexPacket :=
  match buf with
  | code :: b₁ :: b₂ :: rest =>
    let len := beNat [b₁, b₂]
    if len < 3 ∨ buf.length < len then
      .error (.truncated "obex packet" (max len 3) buf.length)
    else
      let body := rest.take (len - 3)
      let split := min fieldsLen body.length
      (Header.decodeAll (body.drop split)).map fun headers => ⟨code, body.take split, headers⟩
  | _ => .error (.truncated "obex header" 3 buf.length)

def response (packet : ObexPacket) : UInt8 := packet.code &&& 0x7F

def chunks (packet : ObexPacket) : List Bytes :=
  packet.headers.filterMap fun header =>
    match header with
    | .body chunk | .endOfBody chunk => some chunk
    | _ => none

def grants (packet : ObexPacket) : Bool :=
  packet.headers.any fun header => header = .singleResponseMode srmEnable

end ObexPacket

/-! ## Objects -/

def sniffFormat (data : Bytes) : Option ImageFormat :=
  if 12 ≤ data.length ∧ utf8 "RIFF" <+: data ∧ (data.take 12).drop 8 = utf8 "WEBP" then some .webP
  else if [0xFF, 0xD8, 0xFF] <+: data then some .jpeg
  else if [0x89, 0x50, 0x4E, 0x47] <+: data then some .png
  else if utf8 "GIF8" <+: data then some .gif
  else if utf8 "BM" <+: data then some .bmp
  else if [0x49, 0x49, 0x2A, 0x00] <+: data ∨ [0x4D, 0x4D, 0x00, 0x2A] <+: data then some .tiff
  else if [0x00, 0x00, 0x01, 0x00] <+: data then some .ico
  else if utf8 "qoif" <+: data then some .qoi
  else if [0x76, 0x2F, 0x31, 0x01] <+: data then some .openExr
  else if utf8 "#?RADIANCE" <+: data ∨ utf8 "#?RGBE" <+: data then some .hdr
  else
    match data with
    | p :: kind :: _ => if p = 0x50 ∧ 0x31 ≤ kind ∧ kind ≤ 0x37 then some .pnm else none
    | _ => none

structure ImageProperties where
  handle : Option Text
  variants : List ImageVariant
  deriving DecidableEq

/-- A completed object. -/
inductive Fetched where
  | artwork (format : ImageFormat) (data : Bytes)
  | properties (properties : ImageProperties)
  deriving DecidableEq

/-- What is being asked for. -/
inductive Fetch where
  | thumbnail (handle : Text)
  | properties (handle : Text)
  | image (handle descriptor : Text)
  deriving DecidableEq

namespace Fetch

def handle : Fetch → Text
  | thumbnail handle | properties handle | image handle _ => handle

def mime : Fetch → String
  | thumbnail _ => "x-bt/img-thm"
  | properties _ => "x-bt/img-properties"
  | image _ _ => "x-bt/img-img"

def descriptor : Fetch → Option Text
  | image _ descriptor => some descriptor
  | thumbnail _ | properties _ => none

end Fetch

inductive FeedError where
  | audio (e : AudioError)
  | badImageProperties (what : String)
  deriving DecidableEq

/-- How the XML library reads a listing: the handle of its root and its
elements, or what is wrong with it. -/
abbrev Xml := Bytes → Except String (Option Text × List Element)

def object (xml : Xml) (fetch : Option Fetch) (data : Bytes) : Except FeedError Fetched :=
  match fetch with
  | some (.properties _) =>
    match xml data with
    | .error what => .error (.badImageProperties what)
    | .ok (handle, elements) => .ok (.properties ⟨handle, variants elements⟩)
  | some (.thumbnail _) | some (.image _ _) | none =>
    match sniffFormat data with
    | none => .error (.audio (.badMediaPacket "cover art is not a format we decode"))
    | some format => .ok (.artwork format data)

/-! ## The session -/

inductive FetchState where
  | connecting
  | ready
  | fetching
  | failed
  deriving DecidableEq

/-- Where single response mode stands for the fetch in flight. -/
inductive Srm where
  | offered
  | active
  | declined
  deriving DecidableEq

structure CoverArtSession where
  state : FetchState := .connecting
  fetch : Option Fetch := none
  connectionId : Option UInt32 := none
  body : Bytes := []
  maxPacket : UInt16
  /-- `none` until the first request for an object is handed out. -/
  srm : Option Srm := none

namespace CoverArtSession

def new (maxPacket : UInt16) : CoverArtSession := { maxPacket := max 0x00FF (min maxPacket 0x1000) }

def isReady (session : CoverArtSession) : Bool := session.state = .ready

def start (session : CoverArtSession) (fetch : Fetch) : CoverArtSession × Bool :=
  if !session.isReady then (session, false)
  else
    ({ session with fetch := some fetch, body := [], srm := none, state := .fetching }, true)

def fetchThumbnail (session : CoverArtSession) (handle : Text) : CoverArtSession × Bool :=
  session.start (.thumbnail handle)

def fetchProperties (session : CoverArtSession) (handle : Text) : CoverArtSession × Bool :=
  session.start (.properties handle)

/-- The BIP cover-art responder. -/
def coverArtTarget : Bytes :=
  [0x71, 0x63, 0xDD, 0x54, 0x4A, 0x7E, 0x11, 0xE2, 0xB4, 0x7C, 0x00, 0x50, 0xC2, 0x49, 0x00, 0x48]

def connectionHeader (session : CoverArtSession) : List Header :=
  (session.connectionId.map Header.connectionId).toList

def getFinal (headers : List Header) : Bytes := ObexPacket.encode ⟨0x83, [], headers⟩

def nextRequest (session : CoverArtSession) : CoverArtSession × Option Bytes :=
  match session.state with
  | .connecting =>
    (session, some (ObexPacket.encode
      ⟨0x80, [0x10, 0x00] ++ beBytes 2 session.maxPacket.toNat, [.target coverArtTarget]⟩))
  | .fetching =>
    match session.srm with
    | none =>
      -- the first request for the object: its type, its handle, and the offer
      ({ session with srm := some .offered },
        some (getFinal (session.connectionHeader ++ [.singleResponseMode srmEnable] ++
          match session.fetch with
          | none => []
          | some fetch => [.type fetch.mime, .imageHandle fetch.handle] ++
              (fetch.descriptor.map Header.imageDescription).toList)))
    | some .active | some .offered => (session, none)
    | some .declined => (session, some (getFinal session.connectionHeader))
  | .ready | .failed => (session, none)

def refused : AudioError := .badMediaPacket "cover art fetch was refused"

def feedConnecting (session : CoverArtSession) (packet : ObexPacket) :
    CoverArtSession × Except FeedError (Option Fetched) :=
  if packet.response = 0x20 then
    ({ session with
        connectionId := packet.headers.foldl (fun id header =>
          match header with
          | .connectionId id => some id
          | _ => id) session.connectionId
        state := .ready }, .ok none)
  else
    ({ session with state := .failed },
      .error (.audio (.badMediaPacket "cover art responder refused connect")))

def feedFetching (xml : Xml) (session : CoverArtSession) (packet : ObexPacket) :
    CoverArtSession × Except FeedError (Option Fetched) :=
  let srm := match session.srm with
    | some .offered => some (if packet.grants then Srm.active else .declined)
    | srm => srm
  let body := session.body ++ packet.chunks.flatten
  if packet.response = 0x10 then ({ session with srm, body }, .ok none)
  else if packet.response = 0x20 then
    ({ session with state := .ready, fetch := none, srm := none, body := [] },
      if body.isEmpty then .error (.audio (.badMediaPacket "cover art response was empty"))
      else (object xml session.fetch body).map some)
  else
    -- the session lives: the next object gets its own chance
    ({ session with state := .ready, fetch := none, srm := none, body := [] },
      .error (.audio refused))

def feed (xml : Xml) (session : CoverArtSession) (packet : Bytes) :
    CoverArtSession × Except FeedError (Option Fetched) :=
  match ObexPacket.decode packet (if session.state = .connecting then 4 else 0) with
  | .error e => (session, .error (.audio e))
  | .ok packet =>
    match session.state with
    | .connecting => session.feedConnecting packet
    | .fetching => session.feedFetching xml packet
    | .ready | .failed => (session, .ok none)

end CoverArtSession

end Castaway.Bluetooth
