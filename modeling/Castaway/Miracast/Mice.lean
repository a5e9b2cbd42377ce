import Castaway.Lib.Result
import Castaway.Lib.Utf16
import Mathlib.Data.List.TakeWhile

/-!
# The control channel's messages

Six messages over one TLV array: a type byte, a big-endian length of at least
one, the value.  `encode` puts the TLVs of a message behind a four-byte header
and checks nothing but that the lengths fit.  `decode` reads the array first,
whatever the command, and then takes the TLVs the command needs by their type:
the first of a type counts, and those it does not know are passed over.

An index or a slice that is out of range is the `fault` of `Stop`, which is not
one of the errors `decode` returns.
-/

namespace Castaway.Mice

/-- The source's default RTSP port when it names none. -/
def defaultRtspPort : UInt16 := 7236

/-- Message version.  The only one defined. -/
def version : UInt8 := 0x01

/-- Size, version, command. -/
def headerLen : ℕ := 4

/-- Failures reading or writing a message. -/
inductive MiceError where
  | truncated
  | shortMessage (size : ℕ)
  | tooLong (length : ℕ)
  | unknownVersion (version : UInt8)
  | unknownCommand (command : UInt8)
  | missingTlv (kind : UInt8)
  | badTlvLength (kind : UInt8) (length : ℕ)
  | badFriendlyName
  | illegalSecurityOptions (raw : UInt8)
  | unknownPinReason (raw : UInt8)
  deriving DecidableEq, Repr

/-- Why a computation has no value. -/
inductive Stop where
  | fault
  | error (e : MiceError)
  deriving DecidableEq, Repr

abbrev Result (α : Type) := Except Stop α

/-- `buf[i]` -/
def index (buf : Bytes) (i : ℕ) : Result UInt8 :=
  match buf[i]? with
  | some b => .ok b
  | none => .error .fault

/-- `&buf[first..]` -/
def sliceFrom (buf : Bytes) (first : ℕ) : Result Bytes :=
  if first ≤ buf.length then .ok (buf.drop first) else .error .fault

/-! ## Messages -/

/-- A source's opaque identifier. -/
@[ext]
structure SourceId where
  bytes : Bytes
  sixteen : bytes.length = 16
  deriving Repr

instance : DecidableEq SourceId := fun a b =>
  decidable_of_iff (a.bytes = b.bytes) SourceId.ext_iff.symm

inductive PinResponseReason where
  | accepted
  | wrongPin
  | invalidMessage
  deriving DecidableEq, Repr

namespace PinResponseReason

def bits : PinResponseReason → UInt8
  | accepted => 0x00
  | wrongPin => 0x01
  | invalidMessage => 0x02

def fromBits (raw : UInt8) : Option PinResponseReason :=
  if raw = 0x00 then some accepted
  else if raw = 0x01 then some wrongPin
  else if raw = 0x02 then some invalidMessage
  else none

theorem fromBits_bits (reason : PinResponseReason) : fromBits reason.bits = some reason := by
  cases reason <;> rfl

end PinResponseReason

/-- What a source asked for in a session request. -/
structure SecurityOptions where
  dtls : Bool
  pin : Bool
  deriving DecidableEq, Repr

namespace SecurityOptions

def bits (options : SecurityOptions) : UInt8 :=
  options.dtls.toUInt8 ||| (options.pin.toUInt8 <<< 1)

/-- A PIN without encryption is refused: the PIN exchange is carried inside the
encrypted TLVs. -/
def fromBits (raw : UInt8) : Except MiceError SecurityOptions :=
  let options : SecurityOptions := ⟨raw &&& 0b1 != 0, raw &&& 0b10 != 0⟩
  if options.pin && !options.dtls then .error (.illegalSecurityOptions raw) else .ok options

def Legal (options : SecurityOptions) : Prop := options.pin → options.dtls

instance (options : SecurityOptions) : Decidable options.Legal :=
  inferInstanceAs (Decidable (_ → _))

theorem fromBits_bits (options : SecurityOptions) :
    fromBits options.bits =
      if options.Legal then .ok options else .error (.illegalSecurityOptions options.bits) := by
  obtain ⟨dtls, pin⟩ := options
  cases dtls <;> cases pin <;> decide

theorem legal_of_fromBits {raw : UInt8} {options : SecurityOptions}
    (h : fromBits raw = .ok options) : options.Legal := by
  unfold fromBits at h
  dsimp only at h
  split at h
  · cases h
  · next hlegal =>
      cases h
      simp only [Bool.and_eq_true, Bool.not_eq_true', not_and, Bool.not_eq_false] at hlegal
      exact hlegal

end SecurityOptions

/-- One message on the control channel. -/
inductive MiceMessage where
  | sourceReady (friendlyName : Option String) (rtspPort : UInt16) (sourceId : SourceId)
  | stopProjection (friendlyName : Option String) (sourceId : SourceId)
  | securityHandshake (token : Bytes)
  | sessionRequest (friendlyName : String) (sourceId : SourceId) (security : SecurityOptions)
  | pinChallenge (sourceId : SourceId) (challenge : Bytes)
  | pinResponse (sourceId : SourceId) (reason : PinResponseReason)
  deriving DecidableEq, Repr

/-! ## TLVs -/

namespace Tlv

def friendlyName : UInt8 := 0x00
def rtspPort : UInt8 := 0x02
def sourceId : UInt8 := 0x03
def securityToken : UInt8 := 0x04
def securityOptions : UInt8 := 0x05
def pinChallenge : UInt8 := 0x06
def pinResponseReason : UInt8 := 0x07

end Tlv

/-- A decoded TLV array, in the order it arrived. -/
abbrev Tlvs := List (UInt8 × Bytes)

def putTlv (buf : Bytes) (kind : UInt8) (value : Bytes) : Except MiceError Bytes :=
  if value.length < 2 ^ 16 then .ok (buf ++ kind :: putU16Be (UInt16.ofNat value.length) ++ value)
  else .error (.tooLong value.length)

/-- One turn of the loop of `decodeAll`: the TLV at the front, and what follows
it. -/
def tlvAt (buf : Bytes) : Result ((UInt8 × Bytes) × Bytes) :=
  match rangeAt buf 0 3 with
  | none => .error (.error .truncated)
  | some header => do
    let kind ← index header 0
    let hi ← index header 1
    let lo ← index header 2
    let len := (getU16Be hi lo).toNat
    -- a length of zero is the spec's error, not the reader's
    if len = 0 then .error (.error (.badTlvLength kind 0))
    else match rangeAt buf 3 (3 + len) with
      | none => .error (.error .truncated)
      | some value => do
        let rest ← sliceFrom buf (3 + len)
        .ok ((kind, value), rest)

theorem length_of_tlvAt {buf rest : Bytes} {tlv : UInt8 × Bytes}
    (h : tlvAt buf = .ok (tlv, rest)) : rest.length < buf.length := by
  unfold tlvAt at h
  split at h
  · cases h
  · obtain ⟨kind, -, h⟩ := bind_eq_ok.mp h
    obtain ⟨hi, -, h⟩ := bind_eq_ok.mp h
    obtain ⟨lo, -, h⟩ := bind_eq_ok.mp h
    dsimp only at h
    split at h
    · cases h
    · split at h
      · cases h
      · obtain ⟨rest', hslice, h⟩ := bind_eq_ok.mp h
        cases h
        unfold sliceFrom at hslice
        split at hslice
        · next hle =>
            cases hslice
            rw [List.length_drop]
            omega
        · cases hslice

def decodeAll (buf : Bytes) : Result Tlvs :=
  if buf = [] then .ok []
  else match _hstep : tlvAt buf with
    | .error stop => .error stop
    | .ok (tlv, rest) =>
      match decodeAll rest with
      | .error stop => .error stop
      | .ok tlvs => .ok (tlv :: tlvs)
termination_by buf.length
decreasing_by exact length_of_tlvAt _hstep

namespace Tlvs

def get (tlvs : Tlvs) (kind : UInt8) : Option Bytes :=
  (tlvs.find? (·.1 == kind)).map (·.2)

def find (tlvs : Tlvs) (kind : UInt8) : Result Bytes :=
  match get tlvs kind with
  | some value => .ok value
  | none => .error (.error (.missingTlv kind))

end Tlvs

def beU16 (kind : UInt8) (value : Bytes) : Result UInt16 :=
  match value with
  | [hi, lo] => .ok (getU16Be hi lo)
  | _ => .error (.error (.badTlvLength kind value.length))

def oneByte (kind : UInt8) (value : Bytes) : Result UInt8 :=
  match value with
  | [byte] => .ok byte
  | _ => .error (.error (.badTlvLength kind value.length))

/-! ## Names -/

def encodeUtf16le (text : String) : Bytes := (encodeUtf16 text.toList).flatMap putU16Le

/-- The units of `chunks_exact(2)`, low byte first. -/
def unitsLe : Bytes → List UInt16
  | [] => []
  | [_] => []
  | lo :: hi :: rest => getU16Le lo hi :: unitsLe rest

/-- Zero units are dropped, wherever they stand. -/
def decodeUtf16le (value : Bytes) : Result String :=
  if value.length % 2 ≠ 0 then .error (.error (.badTlvLength Tlv.friendlyName value.length))
  else match fromUtf16 ((unitsLe value).filter (· ≠ 0)) with
    | some chars => .ok (String.ofList chars)
    | none => .error (.error .badFriendlyName)

/-! ## Writing a message -/

namespace MiceMessage

def name : MiceMessage → String
  | sourceReady _ _ _ => "SOURCE_READY"
  | stopProjection _ _ => "STOP_PROJECTION"
  | securityHandshake _ => "SECURITY_HANDSHAKE"
  | sessionRequest _ _ _ => "SESSION_REQUEST"
  | pinChallenge _ _ => "PIN_CHALLENGE"
  | pinResponse _ _ => "PIN_RESPONSE"

def command : MiceMessage → UInt8
  | sourceReady _ _ _ => 0x01
  | stopProjection _ _ => 0x02
  | securityHandshake _ => 0x03
  | sessionRequest _ _ _ => 0x04
  | pinChallenge _ _ => 0x05
  | pinResponse _ _ => 0x06

def nameTlv (friendlyName : Option String) : Tlvs :=
  friendlyName.toList.map fun name => (Tlv.friendlyName, encodeUtf16le name)

/-- The TLVs of a message, in the order `encode` puts them. -/
def tlvs : MiceMessage → Tlvs
  | sourceReady friendlyName rtspPort sourceId =>
    nameTlv friendlyName ++ [(Tlv.rtspPort, putU16Be rtspPort), (Tlv.sourceId, sourceId.bytes)]
  | stopProjection friendlyName sourceId =>
    nameTlv friendlyName ++ [(Tlv.sourceId, sourceId.bytes)]
  | securityHandshake token => [(Tlv.securityToken, token)]
  | sessionRequest friendlyName sourceId security =>
    [(Tlv.friendlyName, encodeUtf16le friendlyName), (Tlv.sourceId, sourceId.bytes),
      (Tlv.securityOptions, [security.bits])]
  | pinChallenge sourceId challenge =>
    [(Tlv.sourceId, sourceId.bytes), (Tlv.pinChallenge, challenge)]
  | pinResponse sourceId reason =>
    [(Tlv.sourceId, sourceId.bytes), (Tlv.pinResponseReason, [reason.bits])]

def putAll (buf : Bytes) : Tlvs → Except MiceError Bytes
  | [] => .ok buf
  | (kind, value) :: rest => do
    let buf ← putTlv buf kind value
    putAll buf rest

def encode (message : MiceMessage) : Except MiceError Bytes := do
  let body ← putAll [] message.tlvs
  let total := headerLen + body.length
  if total < 2 ^ 16 then
    .ok (putU16Be (UInt16.ofNat total) ++ [version, message.command] ++ body)
  else .error (.tooLong total)

/-! ## Reading one -/

/-- How many bytes the message at the front claims to be. -/
def framedLen (buf : Bytes) : Result ℕ :=
  match rangeAt buf 0 headerLen with
  | none => .error (.error .truncated)
  | some header => do
    let hi ← index header 0
    let lo ← index header 1
    let size := (getU16Be hi lo).toNat
    if size < headerLen then .error (.error (.shortMessage size)) else .ok size

def sourceIdOf (tlvs : Tlvs) : Result SourceId := do
  let value ← Tlvs.find tlvs Tlv.sourceId
  if h : value.length = 16 then .ok ⟨value, h⟩
  else .error (.error (.badTlvLength Tlv.sourceId value.length))

def nameOf (tlvs : Tlvs) (required : Bool) : Result (Option String) :=
  match Tlvs.get tlvs Tlv.friendlyName with
  | some value => (decodeUtf16le value).map some
  | none => if required then .error (.error (.missingTlv Tlv.friendlyName)) else .ok none

def rtspPortOf (tlvs : Tlvs) : Result UInt16 :=
  match Tlvs.get tlvs Tlv.rtspPort with
  | some value => beU16 Tlv.rtspPort value
  | none => .ok defaultRtspPort

def securityOf (tlvs : Tlvs) : Result SecurityOptions := do
  let value ← Tlvs.find tlvs Tlv.securityOptions
  let raw ← oneByte Tlv.securityOptions value
  (SecurityOptions.fromBits raw).mapError .error

def reasonOf (raw : UInt8) : Result PinResponseReason :=
  match PinResponseReason.fromBits raw with
  | some reason => .ok reason
  | none => .error (.error (.unknownPinReason raw))

def ofTlvs (command : UInt8) (tlvs : Tlvs) : Result MiceMessage :=
  if command = 0x01 then do
    let friendlyName ← nameOf tlvs false
    let rtspPort ← rtspPortOf tlvs
    let sourceId ← sourceIdOf tlvs
    .ok (sourceReady friendlyName rtspPort sourceId)
  else if command = 0x02 then do
    let friendlyName ← nameOf tlvs false
    let sourceId ← sourceIdOf tlvs
    .ok (stopProjection friendlyName sourceId)
  else if command = 0x03 then do
    let token ← Tlvs.find tlvs Tlv.securityToken
    .ok (securityHandshake token)
  else if command = 0x04 then do
    let friendlyName ← nameOf tlvs true
    let sourceId ← sourceIdOf tlvs
    let security ← securityOf tlvs
    .ok (sessionRequest (friendlyName.getD "") sourceId security)
  else if command = 0x05 then do
    let sourceId ← sourceIdOf tlvs
    let challenge ← Tlvs.find tlvs Tlv.pinChallenge
    .ok (pinChallenge sourceId challenge)
  else if command = 0x06 then do
    let value ← Tlvs.find tlvs Tlv.pinResponseReason
    let raw ← oneByte Tlv.pinResponseReason value
    let sourceId ← sourceIdOf tlvs
    let reason ← reasonOf raw
    .ok (pinResponse sourceId reason)
  else .error (.error (.unknownCommand command))

def decode (buf : Bytes) : Result MiceMessage := do
  let size ← framedLen buf
  match rangeAt buf 0 size with
  | none => .error (.error .truncated)
  | some message => do
    let version' ← index message 2
    if version' ≠ version then .error (.error (.unknownVersion version'))
    else do
      let command ← index message 3
      let body ← sliceFrom message headerLen
      let tlvs ← decodeAll body
      ofTlvs command tlvs

end MiceMessage

end Castaway.Mice
