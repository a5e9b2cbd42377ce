import Castaway.L2cap.Frame
import Castaway.Lib.Result

/-!
# The signaling channel

The commands of `signaling.rs`: connection, configuration and disconnection,
with their encoder and their decoder.  A frame may pack several commands, and
`decodeFrame` keeps what parses and notes what the peer is owed a refusal for.

A command on the wire is a code, an identifier, a length and that much data, so
a command that does not parse is refused and the next one is still found.
-/

namespace Castaway.L2cap

open List

/-! ## Results -/

/-- Why a connection request was refused. -/
inductive ConnectionResult where
  | success
  | pending
  | psmNotSupported
  | securityBlock
  | noResources
  | other (raw : UInt16)
  deriving DecidableEq, Repr

namespace ConnectionResult

def bits : ConnectionResult → UInt16
  | success => 0x0000
  | pending => 0x0001
  | psmNotSupported => 0x0002
  | securityBlock => 0x0003
  | noResources => 0x0004
  | other raw => raw

def fromBits (raw : UInt16) : ConnectionResult :=
  if raw = 0x0000 then success
  else if raw = 0x0001 then pending
  else if raw = 0x0002 then psmNotSupported
  else if raw = 0x0003 then securityBlock
  else if raw = 0x0004 then noResources
  else other raw

end ConnectionResult

/-- Outcome of a configuration exchange. -/
inductive ConfigResult where
  | success
  | unacceptable
  | rejected
  | unknownOptions
  | pending
  | other (raw : UInt16)
  deriving DecidableEq, Repr

namespace ConfigResult

def bits : ConfigResult → UInt16
  | success => 0x0000
  | unacceptable => 0x0001
  | rejected => 0x0002
  | unknownOptions => 0x0003
  | pending => 0x0004
  | other raw => raw

def fromBits (raw : UInt16) : ConfigResult :=
  if raw = 0x0000 then success
  else if raw = 0x0001 then unacceptable
  else if raw = 0x0002 then rejected
  else if raw = 0x0003 then unknownOptions
  else if raw = 0x0004 then pending
  else other raw

end ConfigResult

/-! ## Configuration options -/

inductive ConfigOption where
  /-- Maximum transmission unit the sender of this option can receive. -/
  | mtu (mtu : UInt16)
  | flushTimeout (timeout : UInt16)
  | retransmission (config : RetransmissionConfig)
  | fcs (fcs : FcsType)
  | extendedWindowSize (size : UInt16)
  /-- An option we don't implement, its hint bit stripped from `kind`. -/
  | unknown (kind : UInt8) (hint : Bool) (data : Bytes)
  deriving DecidableEq, Repr

namespace ConfigOption

/-- Whether this option may be ignored rather than refused. -/
def isIgnorable : ConfigOption → Bool
  | unknown _ hint _ => hint
  | _ => true

def hintBit : UInt8 := 0x80

/-- The type and the payload of an option, as `encode` writes them. -/
def body : ConfigOption → UInt8 × Bytes
  | mtu size => (0x01, putU16Le size)
  | flushTimeout timeout => (0x02, putU16Le timeout)
  | retransmission config => (0x04, config.encode)
  | fcs check => (0x05, [check.bits])
  | extendedWindowSize size => (0x07, putU16Le size)
  | unknown kind hint data => (kind ||| if hint then hintBit else 0, data)

/-- Encode an option.  The length saturates at a byte. -/
def encode (option : ConfigOption) : Bytes :=
  option.body.1 :: UInt8.ofNat (min option.body.2.length 255) :: option.body.2

/-- Decode one option whose type and payload have been cut out of the list. -/
def decodeOne (rawKind : UInt8) (body : Bytes) : Except L2capError ConfigOption :=
  let hint := rawKind &&& hintBit ≠ 0
  let kind := rawKind &&& ~~~hintBit
  match body with
  | [b₀, b₁] =>
    if kind = 0x01 then .ok (.mtu (getU16Le b₀ b₁))
    else if kind = 0x02 then .ok (.flushTimeout (getU16Le b₀ b₁))
    else if kind = 0x07 then .ok (.extendedWindowSize (getU16Le b₀ b₁))
    else .ok (.unknown kind hint body)
  | [b₀] => if kind = 0x05 then .ok (.fcs (.fromBits b₀)) else .ok (.unknown kind hint body)
  | _ =>
    if kind = 0x04 ∧ body.length = RetransmissionConfig.len then do
      let config ← RetransmissionConfig.decode body
      .ok (.retransmission config)
    else .ok (.unknown kind hint body)

/-- Decode the list of options at the end of a configuration command. -/
def decodeAll (buf : Bytes) : Except L2capError (List ConfigOption) :=
  match buf with
  | [] => .ok []
  | [_] => .error (.truncated "config option header" 2 1)
  | rawKind :: len :: rest =>
    if rest.length < len.toNat then
      .error (.truncated "config option body" (2 + len.toNat) (2 + rest.length))
    else do
      let option ← decodeOne rawKind (rest.take len.toNat)
      let options ← decodeAll (rest.drop len.toNat)
      .ok (option :: options)
termination_by buf.length
decreasing_by
  simp only [length_drop, length_cons]
  omega

end ConfigOption

/-! ## Commands -/

/-- A signaling command.  `id` correlates a response with its request. -/
inductive Signal where
  | commandReject (id : UInt8) (reason : UInt16) (data : Bytes)
  | connectionRequest (id : UInt8) (psm : Psm) (sourceCid : Cid)
  | connectionResponse (id : UInt8) (destCid sourceCid : Cid) (result : ConnectionResult)
      (status : UInt16)
  | configurationRequest (id : UInt8) (destCid : Cid) (flags : UInt16)
      (options : List ConfigOption)
  | configurationResponse (id : UInt8) (sourceCid : Cid) (flags : UInt16) (result : ConfigResult)
      (options : List ConfigOption)
  | disconnectionRequest (id : UInt8) (destCid sourceCid : Cid)
  | disconnectionResponse (id : UInt8) (destCid sourceCid : Cid)
  | echoRequest (id : UInt8) (data : Bytes)
  | echoResponse (id : UInt8) (data : Bytes)
  | informationRequest (id : UInt8) (infoType : UInt16)
  | informationResponse (id : UInt8) (infoType result : UInt16) (data : Bytes)
  deriving DecidableEq

namespace Signal

def id : Signal → UInt8
  | commandReject id .. | connectionRequest id .. | connectionResponse id ..
  | configurationRequest id .. | configurationResponse id .. | disconnectionRequest id ..
  | disconnectionResponse id .. | echoRequest id .. | echoResponse id ..
  | informationRequest id .. | informationResponse id .. => id

/-- The identifier of the request this command answers, if it is an answer. -/
def answers : Signal → Option UInt8
  | commandReject id .. | connectionResponse id .. | configurationResponse id ..
  | disconnectionResponse id .. | echoResponse id .. | informationResponse id .. => some id
  | connectionRequest .. | configurationRequest .. | disconnectionRequest .. | echoRequest ..
  | informationRequest .. => none

def code : Signal → UInt8
  | commandReject .. => 0x01
  | connectionRequest .. => 0x02
  | connectionResponse .. => 0x03
  | configurationRequest .. => 0x04
  | configurationResponse .. => 0x05
  | disconnectionRequest .. => 0x06
  | disconnectionResponse .. => 0x07
  | echoRequest .. => 0x08
  | echoResponse .. => 0x09
  | informationRequest .. => 0x0A
  | informationResponse .. => 0x0B

def body : Signal → Bytes
  | commandReject _ reason data => putU16Le reason ++ data
  | connectionRequest _ psm sourceCid => putU16Le psm.raw ++ putU16Le sourceCid.raw
  | connectionResponse _ destCid sourceCid result status =>
    putU16Le destCid.raw ++ putU16Le sourceCid.raw ++ putU16Le result.bits ++ putU16Le status
  | configurationRequest _ destCid flags options =>
    putU16Le destCid.raw ++ putU16Le flags ++ options.flatMap ConfigOption.encode
  | configurationResponse _ sourceCid flags result options =>
    putU16Le sourceCid.raw ++ putU16Le flags ++ putU16Le result.bits ++
      options.flatMap ConfigOption.encode
  | disconnectionRequest _ destCid sourceCid | disconnectionResponse _ destCid sourceCid =>
    putU16Le destCid.raw ++ putU16Le sourceCid.raw
  | echoRequest _ data | echoResponse _ data => data
  | informationRequest _ infoType => putU16Le infoType
  | informationResponse _ infoType result data => putU16Le infoType ++ putU16Le result ++ data

def wire (sig : Signal) : Bytes :=
  sig.code :: sig.id :: (putU16Le (.ofNat sig.body.length) ++ sig.body)

def encode (sig : Signal) : Except L2capError Bytes :=
  if sig.body.length > 65535 then .error (.tooLong sig.body.length 65535) else .ok sig.wire

/-! ### Decoding

One decoder for each command code.  Data past the fields of a command is
ignored. -/

def short (need : ℕ) (body : Bytes) : Except L2capError Signal :=
  .error (.truncated "signaling command" need body.length)

def decodeCommandReject (id : UInt8) (body : Bytes) : Except L2capError Signal :=
  match body with
  | b₀ :: b₁ :: data => .ok (.commandReject id (getU16Le b₀ b₁) data)
  | _ => short 2 body

def decodeConnectionRequest (id : UInt8) (body : Bytes) : Except L2capError Signal :=
  match body with
  | b₀ :: b₁ :: b₂ :: b₃ :: _ => do
      let psm ← Psm.new (getU16Le b₀ b₁)
      .ok (.connectionRequest id psm ⟨getU16Le b₂ b₃⟩)
  | _ => short 4 body

def decodeConnectionResponse (id : UInt8) (body : Bytes) : Except L2capError Signal :=
  match body with
  | b₀ :: b₁ :: b₂ :: b₃ :: b₄ :: b₅ :: b₆ :: b₇ :: _ =>
    .ok (.connectionResponse id ⟨getU16Le b₀ b₁⟩ ⟨getU16Le b₂ b₃⟩
      (.fromBits (getU16Le b₄ b₅)) (getU16Le b₆ b₇))
  | _ => short 8 body

def decodeConfigurationRequest (id : UInt8) (body : Bytes) : Except L2capError Signal :=
  match body with
  | b₀ :: b₁ :: b₂ :: b₃ :: rest => do
      let options ← ConfigOption.decodeAll rest
      .ok (.configurationRequest id ⟨getU16Le b₀ b₁⟩ (getU16Le b₂ b₃) options)
  | _ => short 4 body

def decodeConfigurationResponse (id : UInt8) (body : Bytes) : Except L2capError Signal :=
  match body with
  | b₀ :: b₁ :: b₂ :: b₃ :: b₄ :: b₅ :: rest => do
      let options ← ConfigOption.decodeAll rest
      .ok (.configurationResponse id ⟨getU16Le b₀ b₁⟩ (getU16Le b₂ b₃)
        (.fromBits (getU16Le b₄ b₅)) options)
  | _ => short 6 body

def decodeCidPair (command : Cid → Cid → Signal) (body : Bytes) : Except L2capError Signal :=
  match body with
  | b₀ :: b₁ :: b₂ :: b₃ :: _ => .ok (command ⟨getU16Le b₀ b₁⟩ ⟨getU16Le b₂ b₃⟩)
  | _ => short 4 body

def decodeInformationRequest (id : UInt8) (body : Bytes) : Except L2capError Signal :=
  match body with
  | b₀ :: b₁ :: _ => .ok (.informationRequest id (getU16Le b₀ b₁))
  | _ => short 2 body

def decodeInformationResponse (id : UInt8) (body : Bytes) : Except L2capError Signal :=
  match body with
  | b₀ :: b₁ :: b₂ :: b₃ :: data =>
    .ok (.informationResponse id (getU16Le b₀ b₁) (getU16Le b₂ b₃) data)
  | _ => short 4 body

/-- Decode one command whose data has been cut out of the frame. -/
def decodeOne (code id : UInt8) (body : Bytes) : Except L2capError Signal :=
  if code = 0x01 then decodeCommandReject id body
  else if code = 0x02 then decodeConnectionRequest id body
  else if code = 0x03 then decodeConnectionResponse id body
  else if code = 0x04 then decodeConfigurationRequest id body
  else if code = 0x05 then decodeConfigurationResponse id body
  else if code = 0x06 then decodeCidPair (.disconnectionRequest id) body
  else if code = 0x07 then decodeCidPair (.disconnectionResponse id) body
  else if code = 0x08 then .ok (.echoRequest id body)
  else if code = 0x09 then .ok (.echoResponse id body)
  else if code = 0x0A then decodeInformationRequest id body
  else if code = 0x0B then decodeInformationResponse id body
  else .error (.unknownSignalingCode code)

end Signal

/-! ## Frames -/

/-- The command code is not one we implement, or the command did not parse. -/
def notUnderstood : UInt16 := 0x0000

/-- One command we could not act on, and why. -/
structure CommandRefusal where
  id : UInt8
  reason : UInt16
  deriving DecidableEq, Repr

/-- What a C-frame decoded to: the commands we understood, and the refusals
owed. -/
structure DecodedFrame where
  signals : List Signal := []
  rejects : List CommandRefusal := []
  /-- The frame ended mid-command, so anything after that point was not parsed.
  -/
  truncated : Bool := false
  deriving DecidableEq

namespace Signal

/-- Decode a whole C-frame, keeping what parses.  A command that does not parse
is refused and the next one is still found by its length; a truncated header or
body stops the parsing. -/
def decodeFrame (buf : Bytes) : DecodedFrame :=
  match buf with
  | [] => {}
  | code :: id :: lo :: hi :: rest =>
    let len := (getU16Le lo hi).toNat
    if rest.length < len then { truncated := true, rejects := [⟨id, notUnderstood⟩] }
    else
      let frame := decodeFrame (rest.drop len)
      match decodeOne code id (rest.take len) with
      | .ok sig => { frame with signals := sig :: frame.signals }
      | .error _ => { frame with rejects := ⟨id, notUnderstood⟩ :: frame.rejects }
  | _ => { truncated := true }
termination_by buf.length
decreasing_by
  simp only [length_drop, length_cons]
  omega

end Signal

/-! ## Sizes

What was cut out of a frame is no longer than the frame, so an answer that
repeats it fits its own length field. -/

namespace ConfigOption

theorem length_encode (option : ConfigOption) :
    option.encode.length = option.body.2.length + 2 := rfl

theorem length_of_decodeOne {rawKind : UInt8} {body : Bytes} {option : ConfigOption}
    (h : decodeOne rawKind body = .ok option) : option.body.2.length = body.length := by
  unfold decodeOne at h
  dsimp only at h
  split at h
  · split at h
    · cases h; rfl
    · split at h
      · cases h; rfl
      · split at h <;> (cases h; rfl)
  · split at h <;> (cases h; rfl)
  · split at h
    next hlen =>
      obtain ⟨config, -, hoption⟩ := bind_eq_ok.mp h
      cases hoption
      exact hlen.2.symm
    next => cases h; rfl

theorem length_of_decodeAll (buf : Bytes) {options : List ConfigOption}
    (h : decodeAll buf = .ok options) : (options.flatMap encode).length = buf.length := by
  induction buf using decodeAll.induct generalizing options with
  | case1 =>
    rw [decodeAll] at h
    cases h
    rfl
  | case2 => 
    rw [decodeAll] at h
    cases h
  | case3 rawKind len rest hshort =>
    rw [decodeAll, if_pos hshort] at h
    cases h
  | case4 rawKind len rest hlong ih =>
    rw [decodeAll, if_neg hlong] at h
    obtain ⟨option, hoption, hrest⟩ := bind_eq_ok.mp h
    obtain ⟨tail, htail, hcons⟩ := bind_eq_ok.mp hrest
    cases hcons
    rw [flatMap_cons, length_append, ih htail, length_encode,
      length_of_decodeOne hoption, length_take, length_drop, length_cons,
      length_cons]
    omega

end ConfigOption

namespace Signal

/-- How long the answer to a command can be, where it repeats what the command
brought. -/
def answerLength : Signal → ℕ
  | configurationRequest _ _ _ options => 6 + (options.flatMap ConfigOption.encode).length
  | echoRequest _ data => data.length
  | _ => 0

variable {code id : UInt8} {body : Bytes} {sig : Signal}

theorem answerLength_of_decodeCommandReject (h : decodeCommandReject id body = .ok sig) :
    sig.answerLength = 0 := by
  unfold decodeCommandReject at h
  split at h <;> cases h
  rfl

theorem answerLength_of_decodeConnectionRequest (h : decodeConnectionRequest id body = .ok sig) :
    sig.answerLength = 0 := by
  unfold decodeConnectionRequest at h
  split at h
  · obtain ⟨psm, -, hsig⟩ := bind_eq_ok.mp h
    cases hsig
    rfl
  · cases h

theorem answerLength_of_decodeConnectionResponse (h : decodeConnectionResponse id body = .ok sig) :
    sig.answerLength = 0 := by
  unfold decodeConnectionResponse at h
  split at h <;> cases h
  rfl

theorem answerLength_of_decodeConfigurationRequest
    (h : decodeConfigurationRequest id body = .ok sig) : sig.answerLength ≤ body.length + 2 := by
  unfold decodeConfigurationRequest at h
  split at h
  next rest =>
    obtain ⟨options, hoptions, hsig⟩ := bind_eq_ok.mp h
    cases hsig
    simp only [answerLength, ConfigOption.length_of_decodeAll _ hoptions, length_cons]
    omega
  next => cases h

theorem answerLength_of_decodeConfigurationResponse
    (h : decodeConfigurationResponse id body = .ok sig) : sig.answerLength = 0 := by
  unfold decodeConfigurationResponse at h
  split at h
  · obtain ⟨options, -, hsig⟩ := bind_eq_ok.mp h
    cases hsig
    rfl
  · cases h

theorem answerLength_of_decodeCidPair {command : Cid → Cid → Signal}
    (hcommand : ∀ destCid sourceCid, (command destCid sourceCid).answerLength = 0)
    (h : decodeCidPair command body = .ok sig) : sig.answerLength = 0 := by
  unfold decodeCidPair at h
  split at h <;> cases h
  exact hcommand _ _

theorem answerLength_of_decodeInformationRequest (h : decodeInformationRequest id body = .ok sig) :
    sig.answerLength = 0 := by
  unfold decodeInformationRequest at h
  split at h <;> cases h
  rfl

theorem answerLength_of_decodeInformationResponse
    (h : decodeInformationResponse id body = .ok sig) : sig.answerLength = 0 := by
  unfold decodeInformationResponse at h
  split at h <;> cases h
  rfl

theorem answerLength_le (h : decodeOne code id body = .ok sig) :
    sig.answerLength ≤ body.length + 2 := by
  have hnone (hsig : sig.answerLength = 0) : sig.answerLength ≤ body.length + 2 :=
    hsig ▸ Nat.zero_le _
  refine of_ite_eq h (fun h => hnone (answerLength_of_decodeCommandReject h)) fun h => ?_
  refine of_ite_eq h (fun h => hnone (answerLength_of_decodeConnectionRequest h)) fun h => ?_
  refine of_ite_eq h (fun h => hnone (answerLength_of_decodeConnectionResponse h)) fun h => ?_
  refine of_ite_eq h answerLength_of_decodeConfigurationRequest fun h => ?_
  refine of_ite_eq h (fun h => hnone (answerLength_of_decodeConfigurationResponse h)) fun h => ?_
  refine of_ite_eq h (fun h => hnone (answerLength_of_decodeCidPair (fun _ _ => rfl) h))
    fun h => ?_
  refine of_ite_eq h (fun h => hnone (answerLength_of_decodeCidPair (fun _ _ => rfl) h))
    fun h => ?_
  refine of_ite_eq h (fun h => ?_) fun h => ?_
  · cases h
    exact Nat.le_add_right _ 2
  refine of_ite_eq h (fun h => ?_) fun h => ?_
  · cases h
    exact hnone rfl
  refine of_ite_eq h (fun h => hnone (answerLength_of_decodeInformationRequest h)) fun h => ?_
  refine of_ite_eq h (fun h => hnone (answerLength_of_decodeInformationResponse h)) fun h => ?_
  cases h

/-- The answer to a command of a frame is shorter than the frame. -/
theorem answerLength_of_decodeFrame (buf : Bytes)
    (h : sig ∈ (decodeFrame buf).signals) : sig.answerLength + 2 ≤ buf.length := by
  fun_induction decodeFrame buf with
  | case1 | case2 => cases h
  | case3 code id lo hi rest len hlong frame first hone ih =>
    simp only [length_cons]
    rcases mem_cons.mp h with rfl | hsig
    · have hle := answerLength_le hone
      simp only [length_take] at hle
      omega
    · have hle := ih hsig
      simp only [length_drop] at hle
      omega
  | case4 code id lo hi rest len hlong frame error herror ih =>
    have hle := ih h
    simp only [length_drop, length_cons] at hle ⊢
    omega
  | case5 => cases h

end Signal

end Castaway.L2cap
