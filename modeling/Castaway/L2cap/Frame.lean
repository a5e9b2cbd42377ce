import Castaway.L2cap.Pdu

/-!
# The frames of Enhanced Retransmission Mode

The wire half of `ertm.rs`: the channel mode, the retransmission option, the
frame check sequence and the two kinds of frame, each with its encoder and its
decoder.

## Strategy

The control field is sixteen bits, assembled from masked and shifted fields.
Reading a field back masks the other fields away, which is `and_field` for one
field against one mask; `decode_encode` collects the fields.  The checksum
covers the basic header, so both ends have to name the channel the same way:
the sender encodes with the peer's identifier and the receiver decodes with its
own.
-/

namespace Castaway.L2cap

/-! ## Modes and checksums -/

/-- Which L2CAP mode a channel runs in. -/
inductive ChannelMode where
  | basic
  | enhancedRetransmission
  | other (raw : UInt8)
  deriving DecidableEq, Repr

namespace ChannelMode

/-- The wire value. -/
def bits : ChannelMode → UInt8
  | basic => 0x00
  | enhancedRetransmission => 0x03
  | other raw => raw

def fromBits (raw : UInt8) : ChannelMode :=
  if raw = 0x00 then basic else if raw = 0x03 then enhancedRetransmission else other raw

end ChannelMode

/-- Frames we may have outstanding before waiting for an acknowledgement. -/
def defaultTxWindow : UInt8 := 32

/-- Total transmissions of one frame before the channel is declared dead. -/
def defaultMaxTransmit : UInt8 := 3

/-- A span of whole milliseconds, in nanoseconds as every span of time is here.
-/
def ofMillis (ms : ℕ) : ℕ := ms * 1000000

/-- How long an unacknowledged frame waits before we poll for it. -/
def defaultRetransmissionTimeout : ℕ := ofMillis 2000

/-- How long a poll waits for its answer before being repeated. -/
def defaultMonitorTimeout : ℕ := ofMillis 12000

/-- The Retransmission and Flow Control configuration option's payload. -/
structure RetransmissionConfig where
  mode : ChannelMode
  txWindow : UInt8
  maxTransmit : UInt8
  retransmissionTimeoutMs : UInt16
  monitorTimeoutMs : UInt16
  mps : UInt16
  deriving DecidableEq, Repr

namespace RetransmissionConfig

/-- Bytes this option occupies on the wire, without its type and length. -/
def len : ℕ := 9

/-- Basic mode, which is what an absent option means. -/
def basic : RetransmissionConfig := ⟨.basic, 0, 0, 0, 0, 0⟩

/-- An ERTM proposal for a channel whose largest receivable payload is `mps`. -/
def ertm (mps : UInt16) : RetransmissionConfig :=
  ⟨.enhancedRetransmission, defaultTxWindow, defaultMaxTransmit, 0, 0, mps⟩

def encode (config : RetransmissionConfig) : Bytes :=
  [config.mode.bits, config.txWindow, config.maxTransmit] ++
    putU16Le config.retransmissionTimeoutMs ++ putU16Le config.monitorTimeoutMs ++
    putU16Le config.mps

def decode : Bytes → Except L2capError RetransmissionConfig
  | b₀ :: b₁ :: b₂ :: b₃ :: b₄ :: b₅ :: b₆ :: b₇ :: b₈ :: _ =>
    .ok ⟨.fromBits b₀, b₁, b₂, getU16Le b₃ b₄, getU16Le b₅ b₆, getU16Le b₇ b₈⟩
  | body => .error (.truncated "retransmission and flow control option" len body.length)

@[simp] theorem length_encode (config : RetransmissionConfig) : config.encode.length = 9 := rfl

end RetransmissionConfig

/-- Whether a channel carries a frame check sequence. -/
inductive FcsType where
  | none
  | crc16
  | other (raw : UInt8)
  deriving DecidableEq, Repr

namespace FcsType

/-- The wire value. -/
def bits : FcsType → UInt8
  | none => 0x00
  | crc16 => 0x01
  | other raw => raw

def fromBits (raw : UInt8) : FcsType :=
  if raw = 0x00 then none else if raw = 0x01 then crc16 else other raw

/-- Whether frames on this channel carry a trailing checksum. -/
def isPresent : FcsType → Bool
  | none => false
  | _ => true

end FcsType

/-! ## The two kinds of frame -/

/-- What an S-frame is saying about the receiver's state. -/
inductive Supervisory where
  | receiverReady
  | reject
  | receiverNotReady
  | selectiveReject
  | other (raw : UInt8)
  deriving DecidableEq, Repr

namespace Supervisory

def bits : Supervisory → ℕ
  | receiverReady => 0
  | reject => 1
  | receiverNotReady => 2
  | selectiveReject => 3
  | other raw => raw.toNat &&& 0x03

def fromBits (raw : ℕ) : Supervisory :=
  match raw &&& 0x03 with
  | 0 => receiverReady
  | 1 => reject
  | 2 => receiverNotReady
  | _ => selectiveReject

end Supervisory

/-- Where a frame sits in the SDU it belongs to. -/
inductive Segmentation where
  | unsegmented
  | start
  | continuation
  | end_
  deriving DecidableEq, Repr

namespace Segmentation

def bits : Segmentation → ℕ
  | unsegmented => 0
  | start => 1
  | end_ => 2
  | continuation => 3

def fromBits (raw : ℕ) : Segmentation :=
  match raw &&& 0x03 with
  | 0 => unsegmented
  | 1 => start
  | 2 => end_
  | _ => continuation

@[simp] theorem fromBits_bits (sar : Segmentation) : fromBits sar.bits = sar := by
  cases sar <;> rfl

theorem bits_lt (sar : Segmentation) : sar.bits < 4 := by cases sar <;> decide

end Segmentation

/-- One ERTM frame, with the standard two-byte control field. -/
inductive Frame where
  | information (txSeq reqSeq : ℕ) (finalBit : Bool) (sar : Segmentation)
      (sduLen : Option UInt16) (payload : Bytes)
  | supervisory (function : Supervisory) (reqSeq : ℕ) (poll finalBit : Bool)
  deriving DecidableEq, Repr

namespace Ctrl

/-- Bit 0 distinguishes S-frames from I-frames. -/
def frameTypeS : ℕ := 0x0001
def txSeq : ℕ := 0x007E
def txSeqShift : ℕ := 1
def supervisory : ℕ := 0x000C
def supervisoryShift : ℕ := 2
def poll : ℕ := 0x0010
def final : ℕ := 0x0080
def reqSeq : ℕ := 0x3F00
def reqSeqShift : ℕ := 8
def sar : ℕ := 0xC000
def sarShift : ℕ := 14

end Ctrl

/-! ## The checksum -/

/-- One bit of the CRC: shift right, and fold the polynomial in when a one falls
out. -/
def crcBit (crc : UInt16) : UInt16 :=
  if crc &&& 1 ≠ 0 then (crc >>> 1) ^^^ 0xA001 else crc >>> 1

/-- CRC-16/ARC: polynomial `0x8005` reflected, initial value zero. -/
def crc16 (data : Bytes) : UInt16 :=
  data.foldl (fun crc byte => crcBit^[8] (crc ^^^ byte.toUInt16)) 0

/-- CRC-16/ARC's standard check value. -/
example : crc16 "123456789".toUTF8.toList = 0xBB3D := by decide +kernel

/-- A length as the basic header's 16-bit field, saturating. -/
def headerLength (n : ℕ) : UInt16 := UInt16.ofNat (min n 65535)

/-- The checksum of `body` on channel `cid`, in a PDU of `total` payload bytes.
-/
def frameCheck (cid : Cid) (total : ℕ) (body : Bytes) : UInt16 :=
  crc16 (putU16Le (headerLength total) ++ putU16Le cid.raw ++ body)

namespace Frame

/-- The acknowledgement this frame carries, whichever kind it is. -/
def reqSeq : Frame → ℕ
  | information _ reqSeq _ _ _ _ => reqSeq
  | supervisory _ reqSeq _ _ => reqSeq

def finalBit : Frame → Bool
  | information _ _ finalBit _ _ _ => finalBit
  | supervisory _ _ _ finalBit => finalBit

/-! ## Encoding -/

def control : Frame → ℕ
  | information txSeq reqSeq finalBit sar _ _ =>
    ((txSeq <<< Ctrl.txSeqShift) &&& Ctrl.txSeq) |||
      ((reqSeq <<< Ctrl.reqSeqShift) &&& Ctrl.reqSeq) |||
      ((sar.bits <<< Ctrl.sarShift) &&& Ctrl.sar) |||
      (if finalBit then Ctrl.final else 0)
  | supervisory function reqSeq poll finalBit =>
    Ctrl.frameTypeS |||
      ((function.bits <<< Ctrl.supervisoryShift) &&& Ctrl.supervisory) |||
      ((reqSeq <<< Ctrl.reqSeqShift) &&& Ctrl.reqSeq) |||
      (if poll then Ctrl.poll else 0) |||
      (if finalBit then Ctrl.final else 0)

def body (frame : Frame) : Bytes :=
  putU16Le (UInt16.ofNat frame.control) ++
    match frame with
    | information _ _ _ sar sduLen payload =>
      (if sar = .start then putU16Le (sduLen.getD 0) else []) ++ payload
    | supervisory .. => []

/-- Encode as an L2CAP payload.  `cid` is the peer's identifier for the channel,
because the checksum covers the header this payload is about to be wrapped in.
-/
def encode (frame : Frame) (cid : Cid) (fcs : FcsType) : Bytes :=
  if fcs.isPresent then
    frame.body ++ putU16Le (frameCheck cid (frame.body.length + 2) frame.body)
  else
    frame.body

/-! ## Decoding -/

/-- Strip and verify the checksum of a payload, if the channel carries one. -/
def checkedBody (payload : Bytes) (cid : Cid) (fcs : FcsType) : Except L2capError Bytes :=
  if fcs.isPresent then
    if payload.length < 4 then
      .error (.truncated "ertm frame with fcs" 4 payload.length)
    else
      let split := payload.length - 2
      let claimed := getU16Le (payload.getD split 0) (payload.getD (split + 1) 0)
      let computed := frameCheck cid payload.length (payload.take split)
      if computed ≠ claimed then .error (.badFcs cid computed claimed)
      else .ok (payload.take split)
  else
    .ok payload

/-- Decode a frame whose checksum has been dealt with. -/
def decodeBody (body : Bytes) : Except L2capError Frame :=
  match body with
  | lo :: hi :: rest =>
    let control := (getU16Le lo hi).toNat
    let reqSeq := (control &&& Ctrl.reqSeq) >>> Ctrl.reqSeqShift
    let finalBit := decide (control &&& Ctrl.final ≠ 0)
    if control &&& Ctrl.frameTypeS ≠ 0 then
      .ok (supervisory
        (.fromBits ((control &&& Ctrl.supervisory) >>> Ctrl.supervisoryShift))
        reqSeq (decide (control &&& Ctrl.poll ≠ 0)) finalBit)
    else
      let sar := Segmentation.fromBits ((control &&& Ctrl.sar) >>> Ctrl.sarShift)
      let txSeq := (control &&& Ctrl.txSeq) >>> Ctrl.txSeqShift
      if sar = .start then
        match rest with
        | len₀ :: len₁ :: payload =>
          .ok (information txSeq reqSeq finalBit sar (some (getU16Le len₀ len₁)) payload)
        | _ => .error (.truncated "ertm sdu length" 2 rest.length)
      else
        .ok (information txSeq reqSeq finalBit sar none rest)
  | _ => .error (.truncated "ertm control field" 2 body.length)

/-- Decode an L2CAP payload back into a frame, verifying the checksum.  `cid` is
*our* identifier for the channel, the one the peer's checksum covered. -/
def decode (payload : Bytes) (cid : Cid) (fcs : FcsType) : Except L2capError Frame :=
  match checkedBody payload cid fcs with
  | .ok body => decodeBody body
  | .error e => .error e

/-! ## The round trip -/

/-- The frames the standard control field can carry. -/
def WellFormed : Frame → Prop
  | information txSeq reqSeq _ sar sduLen _ =>
    txSeq < 64 ∧ reqSeq < 64 ∧ (sduLen.isSome ↔ sar = .start)
  | supervisory function reqSeq _ _ => reqSeq < 64 ∧ ∀ raw, function ≠ .other raw

/-- A six-bit field comes back from under its own mask. -/
theorem and_mask_six {n : ℕ} (h : n < 64) : n &&& 63 = n := by
  rw [show 63 = 2 ^ 6 - 1 from rfl, Nat.and_two_pow_sub_one_eq_mod]
  exact Nat.mod_eq_of_lt h

/-- A two-bit field comes back from under its own mask. -/
theorem and_mask_two {n : ℕ} (h : n < 4) : n &&& 3 = n := by
  rw [show 3 = 2 ^ 2 - 1 from rfl, Nat.and_two_pow_sub_one_eq_mod]
  exact Nat.mod_eq_of_lt h

/-- One field of the control word, read under a mask that keeps it. -/
theorem and_field {n shift field mask : ℕ} (hfield : field = mask <<< shift)
    (h : n &&& mask = n) : (n <<< shift &&& field) >>> shift = n := by
  rw [hfield, Nat.shiftRight_and_distrib, Nat.shiftLeft_shiftRight, Nat.shiftLeft_shiftRight, h]

section Fields

variable {txSeq reqSeq : ℕ} (finalBit poll : Bool) (sar : Segmentation) (sduLen : Option UInt16)
  (payload : Bytes) (function : Supervisory)

/-- What a mask leaves of a control word is what it leaves of each field. -/
theorem control_information_and (mask : ℕ) :
    (information txSeq reqSeq finalBit sar sduLen payload).control &&& mask =
      (txSeq <<< Ctrl.txSeqShift &&& (Ctrl.txSeq &&& mask)) |||
        (reqSeq <<< Ctrl.reqSeqShift &&& (Ctrl.reqSeq &&& mask)) |||
        (sar.bits <<< Ctrl.sarShift &&& (Ctrl.sar &&& mask)) |||
        (if finalBit then Ctrl.final &&& mask else 0) := by
  cases finalBit <;> simp [control, Nat.and_or_distrib_right, Nat.and_assoc]

theorem control_supervisory_and (mask : ℕ) :
    (supervisory function reqSeq poll finalBit).control &&& mask =
      (Ctrl.frameTypeS &&& mask) |||
        (function.bits <<< Ctrl.supervisoryShift &&& (Ctrl.supervisory &&& mask)) |||
        (reqSeq <<< Ctrl.reqSeqShift &&& (Ctrl.reqSeq &&& mask)) |||
        (if poll then Ctrl.poll &&& mask else 0) |||
        (if finalBit then Ctrl.final &&& mask else 0) := by
  cases finalBit <;> cases poll <;> simp [control, Nat.and_or_distrib_right, Nat.and_assoc]

theorem control_lt (frame : Frame) : frame.control < 65536 := by
  have hmask : frame.control &&& 0xFFFF = frame.control := by
    cases frame with
    | information _ _ finalBit sar sduLen payload =>
      exact control_information_and finalBit sar sduLen payload 0xFFFF
    | supervisory function _ poll finalBit =>
      exact control_supervisory_and finalBit poll function 0xFFFF
  rw [← hmask]
  exact Nat.lt_succ_of_le Nat.and_le_right

-- The masks share no bit, so that under one of them the other fields vanish.

theorem control_information_type :
    (information txSeq reqSeq finalBit sar sduLen payload).control &&& Ctrl.frameTypeS = 0 := by
  rw [control_information_and]
  simp [Ctrl.txSeq, Ctrl.reqSeq, Ctrl.sar, Ctrl.final, Ctrl.frameTypeS]

theorem control_information_txSeq (h : txSeq < 64) :
    ((information txSeq reqSeq finalBit sar sduLen payload).control &&& Ctrl.txSeq) >>>
      Ctrl.txSeqShift = txSeq := by
  simp only [control_information_and, Ctrl.txSeq, Ctrl.reqSeq, Ctrl.sar, Ctrl.final,
    Nat.reduceAnd, Nat.and_zero, Nat.or_zero, ite_self]
  exact and_field rfl (and_mask_six h)

theorem control_information_reqSeq (h : reqSeq < 64) :
    ((information txSeq reqSeq finalBit sar sduLen payload).control &&& Ctrl.reqSeq) >>>
      Ctrl.reqSeqShift = reqSeq := by
  simp only [control_information_and, Ctrl.txSeq, Ctrl.reqSeq, Ctrl.sar, Ctrl.final,
    Nat.reduceAnd, Nat.and_zero, Nat.or_zero, Nat.zero_or, ite_self]
  exact and_field rfl (and_mask_six h)

theorem control_information_sar :
    ((information txSeq reqSeq finalBit sar sduLen payload).control &&& Ctrl.sar) >>>
      Ctrl.sarShift = sar.bits := by
  simp only [control_information_and, Ctrl.txSeq, Ctrl.reqSeq, Ctrl.sar, Ctrl.final,
    Nat.reduceAnd, Nat.and_zero, Nat.or_zero, Nat.zero_or, ite_self]
  exact and_field rfl (and_mask_two sar.bits_lt)

theorem control_information_final :
    decide ((information txSeq reqSeq finalBit sar sduLen payload).control &&& Ctrl.final ≠ 0) =
      finalBit := by
  simp [control_information_and, Ctrl.txSeq, Ctrl.reqSeq, Ctrl.sar, Ctrl.final]

theorem control_supervisory_type :
    (supervisory function reqSeq poll finalBit).control &&& Ctrl.frameTypeS ≠ 0 := by
  rw [control_supervisory_and]
  simp [Ctrl.frameTypeS, Ctrl.supervisory, Ctrl.reqSeq, Ctrl.poll, Ctrl.final]

theorem control_supervisory_reqSeq (h : reqSeq < 64) :
    ((supervisory function reqSeq poll finalBit).control &&& Ctrl.reqSeq) >>>
      Ctrl.reqSeqShift = reqSeq := by
  simp only [control_supervisory_and, Ctrl.frameTypeS, Ctrl.supervisory, Ctrl.reqSeq, Ctrl.poll,
    Ctrl.final, Nat.reduceAnd, Nat.and_zero, Nat.or_zero, Nat.zero_or, ite_self]
  exact and_field rfl (and_mask_six h)

theorem bits_lt_four (function : Supervisory) : function.bits < 4 := by
  cases function with
  | other raw => exact Nat.lt_succ_of_le Nat.and_le_right
  | _ => decide

theorem control_supervisory_function :
    ((supervisory function reqSeq poll finalBit).control &&& Ctrl.supervisory) >>>
      Ctrl.supervisoryShift = function.bits := by
  simp only [control_supervisory_and, Ctrl.frameTypeS, Ctrl.supervisory, Ctrl.reqSeq, Ctrl.poll,
    Ctrl.final, Nat.reduceAnd, Nat.and_zero, Nat.or_zero, Nat.zero_or, ite_self]
  exact and_field rfl (and_mask_two (bits_lt_four function))

theorem control_supervisory_poll :
    decide ((supervisory function reqSeq poll finalBit).control &&& Ctrl.poll ≠ 0) = poll := by
  simp [control_supervisory_and, Ctrl.frameTypeS, Ctrl.supervisory, Ctrl.reqSeq, Ctrl.poll,
    Ctrl.final]

theorem control_supervisory_final :
    decide ((supervisory function reqSeq poll finalBit).control &&& Ctrl.final ≠ 0) =
      finalBit := by
  simp [control_supervisory_and, Ctrl.frameTypeS, Ctrl.supervisory, Ctrl.reqSeq, Ctrl.poll,
    Ctrl.final]

end Fields

/-- The control field survives its two bytes. -/
theorem control_toNat (frame : Frame) : (UInt16.ofNat frame.control).toNat = frame.control := by
  rw [UInt16.toNat_ofNat', Nat.mod_eq_of_lt frame.control_lt]

theorem decodeBody_body {frame : Frame} (h : frame.WellFormed) :
    decodeBody frame.body = .ok frame := by
  cases frame with
  | information txSeq reqSeq finalBit sar sduLen payload =>
    obtain ⟨htx, hreq, hlen⟩ := h
    rw [body, putU16Le, List.cons_append, List.cons_append, List.nil_append, decodeBody]
    simp only [getU16Le_bytes, control_toNat, control_information_type, ne_eq, not_true_eq_false,
      if_false, control_information_txSeq _ _ _ _ htx, control_information_sar,
      control_information_reqSeq _ _ _ _ hreq, control_information_final,
      Segmentation.fromBits_bits]
    by_cases hstart : sar = .start
    · obtain ⟨len, rfl⟩ := Option.isSome_iff_exists.mp (hlen.mpr hstart)
      simp [hstart, putU16Le]
    · have hnone : sduLen = none := by
        rwa [← Option.not_isSome_iff_eq_none, hlen]
      simp [hstart, hnone]
  | supervisory function reqSeq poll finalBit =>
    obtain ⟨hreq, hfunction⟩ := h
    rw [body, putU16Le, List.cons_append, List.cons_append, decodeBody]
    have hback : Supervisory.fromBits function.bits = function := by
      cases function with
      | other raw => exact absurd rfl (hfunction raw)
      | _ => rfl
    simp only [getU16Le_bytes, control_toNat, control_supervisory_type, ne_eq,
      not_false_eq_true, if_true, control_supervisory_reqSeq _ _ _ hreq,
      control_supervisory_function, control_supervisory_final, control_supervisory_poll, hback]

/-- The checksum a sender appends is the one the receiver computes. -/
theorem checkedBody_encode (frame : Frame) (cid : Cid) (fcs : FcsType) :
    checkedBody (frame.encode cid fcs) cid fcs = .ok frame.body := by
  unfold checkedBody encode
  split
  · have hbody : 2 ≤ frame.body.length := by simp [body]
    have hlen : ∀ x : UInt16, (frame.body ++ putU16Le x).length = frame.body.length + 2 := by
      simp
    simp only [hlen, Nat.add_sub_cancel, List.take_left]
    rw [if_neg (by omega)]
    simp [putU16Le]
  · rfl

/-- **Decoding undoes encoding**, at the end of the channel the checksum was
computed for. -/
theorem decode_encode {frame : Frame} (h : frame.WellFormed) (cid : Cid) (fcs : FcsType) :
    decode (frame.encode cid fcs) cid fcs = .ok frame := by
  rw [decode, checkedBody_encode]
  exact decodeBody_body h

end Frame

end Castaway.L2cap
