import Castaway.Lib.Bytes

/-!
# What the AirPlay requests carry

The bodies and headers that negotiate a session: the `ANNOUNCE` session
description, the `Transport` header of an audio `SETUP`, the `RTP-Info` header
of a `FLUSH`, and the property lists of the other `SETUP`s.  All of it is
parsing, and none of it keeps state.

Text is a list of characters.  The ciphers, the digest, base64 and the property
list format come from libraries and are the fields of `Primitives`.
-/

namespace Castaway.AirPlay

/-! ## Text -/

abbrev Text := List Char

namespace Text

/-- `char::is_whitespace`. -/
def isWhite (c : Char) : Bool :=
  let n := c.toNat
  (9 ≤ n && n ≤ 13) || n = 0x20 || n = 0x85 || n = 0xA0 || n = 0x1680 ||
    (0x2000 ≤ n && n ≤ 0x200A) || n = 0x2028 || n = 0x2029 || n = 0x202F || n = 0x205F ||
    n = 0x3000

def trimStart (t : Text) : Text := t.dropWhile isWhite

def trim (t : Text) : Text := (trimStart (trimStart t).reverse).reverse

def after? (start t : Text) : Option Text :=
  if start.isPrefixOf t then some (t.drop start.length) else none

/-- `eq_ignore_ascii_case`. -/
def sameLetters (s t : Text) : Bool := s.map Char.toLower == t.map Char.toLower

/-- Strip a `key=` in front, whatever the case of its letters. -/
def afterKey? (key t : Text) : Option Text :=
  if sameLetters (t.take key.length) key then some (t.drop key.length) else none

/-- `str::lines`: a line may end in `\r\n`, and the last may end the text. -/
def lines (t : Text) : List Text :=
  let all := t.splitOn '\n'
  let whole := if all.getLast? = some [] then all.dropLast else all
  whole.map fun line => if line.getLast? = some '\r' then line.dropLast else line

def words (t : Text) : List Text :=
  (t.splitOnP isWhite).filter fun word => !word.isEmpty

/-- `str::parse` at an unsigned width: digits, after at most one plus sign. -/
def unsigned (bits : ℕ) (t : Text) : Option ℕ :=
  let digits := (after? ['+'] t).getD t
  if digits.isEmpty || digits.any fun c => !c.isDigit then none
  else
    let n := digits.foldl (fun n c => n * 10 + (c.toNat - '0'.toNat)) 0
    if n < 2 ^ bits then some n else none

/-- `str::from_utf8`. -/
def ofUtf8 (body : Bytes) : Option Text :=
  (ByteArray.utf8Decode? ⟨body.toArray⟩).map Array.toList

end Text

/-! ## What the libraries answer -/

/-- An AES-128 key or initialisation vector. -/
abbrev Block := Vector UInt8 16

/-- The bytes as a field of a fixed length, if that is their length. -/
def exactly (n : ℕ) (b : Bytes) : Option (Vector UInt8 n) :=
  if h : b.length = n then some ⟨b.toArray, by simp [h]⟩ else none

/-- A property list, as its library reads it. -/
inductive Plist where
  | integer (value : ℤ)
  | string (value : String)
  | data (bytes : Bytes)
  | boolean (value : Bool)
  | array (items : List Plist)
  | dictionary (entries : List (String × Plist))
  | other

namespace Plist

abbrev Dictionary := List (String × Plist)

def Dictionary.get (dict : Dictionary) (key : String) : Option Plist := dict.lookup key

def Dictionary.containsKey (dict : Dictionary) (key : String) : Bool := (dict.get key).isSome

def asDictionary : Plist → Option Dictionary
  | dictionary entries => some entries
  | _ => none

def asArray : Plist → Option (List Plist)
  | array items => some items
  | _ => none

def asData : Plist → Option Bytes
  | data bytes => some bytes
  | _ => none

def asString : Plist → Option String
  | string value => some value
  | _ => none

def asBoolean : Plist → Option Bool
  | boolean value => some value
  | _ => none

def asSignedInteger : Plist → Option ℤ
  | integer value => if -2 ^ 63 ≤ value ∧ value < 2 ^ 63 then some value else none
  | _ => none

def asUnsignedInteger : Plist → Option ℕ
  | integer value => if 0 ≤ value ∧ value < 2 ^ 64 then some value.toNat else none
  | _ => none

end Plist

/-- The libraries and the tables the negotiation calls on. -/
structure Primitives where
  base64 : Text → Option Bytes
  readPlist : Bytes → Option Plist
  writePlist : Plist.Dictionary → Option Bytes
  sha512 : Bytes → Vector UInt8 64
  /-- Unwrap an `a=rsaaeskey:` with the AirPort key. -/
  unwrapAesKey : Bytes → Option Block
  /-- Unwrap an `ekey` with the key message of `/fp-setup`. -/
  decryptKey : Vector UInt8 164 → Vector UInt8 72 → Option Block

def digestBlock (digest : Vector UInt8 64) : Block := Vector.ofFn fun i => digest[i.val]

/-- Re-key an unwrapped media key with a verified pairing secret. -/
def Primitives.rekeyMedia (lib : Primitives) (aesKey : Block) (shared : Vector UInt8 32) : Block :=
  digestBlock (lib.sha512 (aesKey.toList ++ shared.toList))

/-! ## What a negotiation settles -/

/-- ALAC's parameters, as the `a=fmtp:` integers state them. -/
structure AlacConfig where
  frameLength : UInt32
  compatibleVersion : UInt8
  bitDepth : UInt8
  pb : UInt8
  mb : UInt8
  kb : UInt8
  channels : UInt8
  maxRun : UInt16
  maxFrameBytes : UInt32
  avgBitRate : UInt32
  sampleRate : UInt32
  deriving DecidableEq, Repr

/-- The configuration a `SETUP` property list implies. -/
def AlacConfig.airplay (frameLength sampleRate : UInt32) (channels : UInt8) : AlacConfig where
  frameLength := frameLength
  compatibleVersion := 0
  bitDepth := 16
  pb := 40
  mb := 10
  kb := 14
  channels := channels
  maxRun := 255
  maxFrameBytes := 0
  avgBitRate := 0
  sampleRate := sampleRate

/-- What the sender is about to put on the wire. -/
inductive RaopCodec where
  | alac (config : AlacConfig)
  | pcm (sampleRate : UInt32) (channels : UInt8)
  | aacEld (sampleRate : UInt32) (channels : UInt8)
  deriving DecidableEq, Repr

def RaopCodec.sampleRate : RaopCodec → UInt32
  | alac config => config.sampleRate
  | pcm sampleRate _ => sampleRate
  | aacEld sampleRate _ => sampleRate

/-- Which AirPlay flow negotiated a stream. -/
inductive Generation where
  | airPlay1
  | mirroring
  deriving DecidableEq, Repr

/-- Whether, and how, the audio payload is encrypted. -/
inductive StreamCrypto where
  | none
  | aes (key iv : Block)
  deriving DecidableEq, Repr

/-- Everything the announcement of an audio stream settled. -/
structure AnnounceParams where
  generation : Generation
  codec : RaopCodec
  crypto : StreamCrypto
  minLatency : Option UInt32
  maxLatency : Option UInt32
  deriving DecidableEq, Repr

namespace AnnounceParams

/-- Re-key the media with a verified pairing secret; a stream in the clear has
no key. -/
def rekeyWith (lib : Primitives) (params : AnnounceParams) (shared : Vector UInt8 32) :
    AnnounceParams :=
  match params.crypto with
  | .none => params
  | .aes key iv => { params with crypto := .aes (lib.rekeyMedia key shared) iv }

/-- A stream negotiated by a `SETUP` property list. -/
def plistStream (codec : RaopCodec) (key iv : Block) : AnnounceParams :=
  ⟨.mirroring, codec, .aes key iv, none, none⟩

def withDeclaredLatency (params : AnnounceParams) (min max : Option UInt32) : AnnounceParams :=
  { params with minLatency := min, maxLatency := max }

end AnnounceParams

/-! ## The session description of an `ANNOUNCE` -/

inductive SdpError where
  | notUtf8
  | missingRtpmap
  | unsupportedCodec (encoding : Text)
  | badFmtp
  | badBase64 (name : String)
  | badLength (name : String)
  | keyUnwrap
  | halfEncrypted (missing : String)
  deriving DecidableEq, Repr

/-- The RTSP status to answer an `ANNOUNCE` this error came from. -/
def SdpError.rtspStatus : SdpError → ℕ
  | halfEncrypted _ => 456
  | unsupportedCodec _ => 415
  | keyUnwrap => 456
  | notUtf8 => 400
  | missingRtpmap => 400
  | badFmtp => 400
  | badBase64 _ => 400
  | badLength _ => 400

theorem SdpError.refuses (e : SdpError) : 400 ≤ e.rtspStatus := by
  cases e <;> simp [rtspStatus]

namespace Sdp

def fmtpDefaults : List ℕ := [96, 352, 0, 16, 40, 10, 14, 2, 255, 0, 0, 44100]

def overwrite : List ℕ → List Text → Except SdpError (List ℕ)
  | _ :: slots, field :: fields =>
    match Text.unsigned 32 field with
    | none => .error .badFmtp
    | some n => (overwrite slots fields).map (n :: ·)
  | slots, _ => .ok slots

/-- Parse the twelve `a=fmtp:` integers over their defaults. -/
def parseFmtp (fmtp : Option Text) : Except SdpError AlacConfig := do
  let v ← match fmtp with
    | none => .ok fmtpDefaults
    | some line => overwrite fmtpDefaults (Text.words line)
  let narrow := fun i =>
    if v.getD i 0 < 256 then Except.ok (UInt8.ofNat (v.getD i 0)) else .error SdpError.badFmtp
  let wide := fun i => UInt32.ofNat (v.getD i 0)
  return {
    frameLength := wide 1
    compatibleVersion := ← narrow 2
    bitDepth := ← narrow 3
    pb := ← narrow 4
    mb := ← narrow 5
    kb := ← narrow 6
    channels := ← narrow 7
    maxRun := ←
      if v.getD 8 0 < 65536 then Except.ok (UInt16.ofNat (v.getD 8 0)) else .error .badFmtp
    maxFrameBytes := wide 9
    avgBitRate := wide 10
    sampleRate := wide 11 }

/-- Turn the `rtpmap` encoding name, and `fmtp` for ALAC, into a codec. -/
def parseCodec (rtpmap : Text) (fmtp : Option Text) : Except SdpError RaopCodec :=
  let encoding := Text.trim <|
    match rtpmap.dropWhile (· != ' ') with
    | [] => rtpmap
    | _ :: rest => rest
  if Text.sameLetters encoding "AppleLossless".toList then (parseFmtp fmtp).map .alac
  else
    let rest? :=
      (Text.after? "L16/".toList encoding).or
        (if Text.sameLetters encoding "L16".toList then some "44100/2".toList else none)
    match rest? with
    | none => .error (.unsupportedCodec encoding)
    | some rest =>
      let parts := rest.splitOn '/'
      let sampleRate := ((parts[0]?).bind (Text.unsigned 32)).getD 44100
      let channels := ((parts[1]?).bind (Text.unsigned 8)).getD 2
      .ok (.pcm (UInt32.ofNat sampleRate) (UInt8.ofNat channels))

/-- The attributes of a session description that are read. -/
structure Attributes where
  rtpmap : Option Text := none
  fmtp : Option Text := none
  wrappedKey : Option Bytes := none
  iv : Option Block := none
  minLatency : Option UInt32 := none
  maxLatency : Option UInt32 := none

def decodeBase64 (lib : Primitives) (value : Text) (name : String) : Except SdpError Bytes :=
  match lib.base64 ((Text.trim value).reverse.dropWhile (· == '=')).reverse with
  | none => .error (.badBase64 name)
  | some bytes => .ok bytes

/-- Six attributes are read, and every other line is ignored. -/
def readLine (lib : Primitives) (read : Attributes) (line : Text) : Except SdpError Attributes :=
  let latency := fun v => (Text.unsigned 32 (Text.trim v)).map UInt32.ofNat
  match Text.after? "a=rtpmap:".toList line with
  | some v => .ok { read with rtpmap := some v }
  | none =>
  match Text.after? "a=fmtp:".toList line with
  | some v => .ok { read with fmtp := some v }
  | none =>
  match Text.after? "a=rsaaeskey:".toList line with
  | some v => (decodeBase64 lib v "rsaaeskey").map fun key => { read with wrappedKey := some key }
  | none =>
  match Text.after? "a=aesiv:".toList line with
  | some v =>
    (decodeBase64 lib v "aesiv").bind fun raw =>
      match exactly 16 raw with
      | none => .error (.badLength "aesiv")
      | some iv => .ok { read with iv := some iv }
  | none =>
  match Text.after? "a=min-latency:".toList line with
  | some v => .ok { read with minLatency := latency v }
  | none =>
  match Text.after? "a=max-latency:".toList line with
  | some v => .ok { read with maxLatency := latency v }
  | none => .ok read

/-- The two encryption attributes come together or not at all. -/
def crypto (lib : Primitives) (read : Attributes) : Except SdpError StreamCrypto :=
  match read.wrappedKey, read.iv with
  | none, none => .ok .none
  | some wrapped, some iv =>
    match lib.unwrapAesKey wrapped with
    | none => .error .keyUnwrap
    | some key => .ok (.aes key iv)
  | some _, none => .error (.halfEncrypted "aesiv")
  | none, some _ => .error (.halfEncrypted "rsaaeskey")

end Sdp

/-- Parse an `ANNOUNCE` body. -/
def AnnounceParams.parse (lib : Primitives) (body : Bytes) : Except SdpError AnnounceParams :=
  match Text.ofUtf8 body with
  | none => .error .notUtf8
  | some text => do
      let read ← ((Text.lines text).map Text.trim).foldlM (Sdp.readLine lib) {}
      match read.rtpmap with
      | none => .error .missingRtpmap
      | some rtpmap =>
        let codec ← Sdp.parseCodec rtpmap read.fmtp
        let crypto ← Sdp.crypto lib read
        return ⟨.airPlay1, codec, crypto, read.minLatency, read.maxLatency⟩

/-! ## The ports -/

/-- A port that is not zero: zero on the wire says that there is no such
service. -/
abbrev Port := {p : UInt16 // p ≠ 0}

def Port.new (p : UInt16) : Option Port := if h : p ≠ 0 then some ⟨p, h⟩ else none

/-- The ports one `Transport` header names. -/
structure SenderPorts where
  control : UInt16
  timing : UInt16
  deriving DecidableEq, Repr

/-- The ports of the sender that a session has learned. -/
structure SenderPeers where
  control : Option Port
  timing : Option Port
  deriving DecidableEq, Repr

def SenderPeers.default : SenderPeers := ⟨none, none⟩

def SenderPeers.from (ports : SenderPorts) : SenderPeers :=
  ⟨Port.new ports.control, Port.new ports.timing⟩

structure ReceiverPorts where
  audio : UInt16
  control : UInt16
  timing : UInt16
  deriving DecidableEq, Repr

inductive TransportError where
  | notUdp
  | missingPort (name : String)
  deriving DecidableEq, Repr

/-- Parse the `Transport` header of an audio `SETUP`. -/
def parseTransport (header : Text) : Except TransportError SenderPorts :=
  let parts := (header.splitOn ';').map Text.trim
  let step := fun (read : Option ℕ × Option ℕ × Bool) part =>
    if Text.sameLetters part "RTP/AVP/UDP".toList || Text.sameLetters part "RTP/AVP".toList then
      (read.1, read.2.1, true)
    else
      match Text.afterKey? "control_port=".toList part with
      | some v => (Text.unsigned 16 v, read.2)
      | none =>
        match Text.afterKey? "timing_port=".toList part with
        | some v => (read.1, Text.unsigned 16 v, read.2.2)
        | none => read
  match parts.foldl step (none, none, false) with
  | (_, _, false) => .error .notUdp
  | (none, _, true) => .error (.missingPort "control_port")
  | (some _, none, true) => .error (.missingPort "timing_port")
  | (some control, some timing, true) => .ok ⟨UInt16.ofNat control, UInt16.ofNat timing⟩

/-- The `Transport` header that answers a `SETUP`. -/
def formatTransport (ports : ReceiverPorts) : String :=
  "RTP/AVP/UDP;unicast;mode=record;control_port=" ++ toString ports.control.toNat ++
    ";timing_port=" ++ toString ports.timing.toNat ++ ";server_port=" ++
    toString ports.audio.toNat

/-- Where the audio before a seek ends, from the `RTP-Info` header of a `FLUSH`.
-/
structure FlushPoint where
  rtp : Option UInt32
  seq : Option UInt16
  deriving DecidableEq, Repr

def FlushPoint.parse (header : Text) : FlushPoint :=
  ((header.splitOn ';').map Text.trim).foldl
    (fun point part =>
      match Text.after? "rtptime=".toList part with
      | some v => { point with rtp := (Text.unsigned 32 (Text.trim v)).map UInt32.ofNat }
      | none =>
        match Text.after? "seq=".toList part with
        | some v => { point with seq := (Text.unsigned 16 (Text.trim v)).map UInt16.ofNat }
        | none => point)
    ⟨none, none⟩

/-! ## The codec of a stream entry -/

/-- The codec a stream entry names in its `ct` field. -/
inductive StreamCodec where
  | pcm
  | alac
  | aacLc
  | aacEld
  deriving DecidableEq, Repr

namespace StreamCodec

def parse (ct : ℤ) : Option StreamCodec :=
  if ct = 1 then some pcm
  else if ct = 2 then some alac
  else if ct = 4 then some aacLc
  else if ct = 8 then some aacEld
  else none

/-- The stream this codec describes; AAC-LC is not served. -/
def negotiated (sampleRate framesPerPacket : UInt32) (channels : UInt8) :
    StreamCodec → Option RaopCodec
  | pcm => some (.pcm sampleRate channels)
  | alac => some (.alac (.airplay framesPerPacket sampleRate channels))
  | aacEld => some (.aacEld sampleRate channels)
  | aacLc => none

end StreamCodec

end Castaway.AirPlay
