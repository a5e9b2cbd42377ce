import Castaway.Cast.Rtp
import Castaway.Lib.Bits

/-!
# The RTCP a Cast receiver owes its sender

`rtcp.rs`: the compound packet of a receiver report, an optional reference time
report, an optional picture loss indicator and Cast's feedback message, which
carries the checkpoint, the packet NACKs as loss fields and the frame ACKs as a
bit vector.

The source appends to one growing buffer, consults its length to decide what
still fits, and patches two lengths in afterwards.  Here each part is built on
its own and `held` names the length of what stands before it.
-/

namespace Castaway.Cast

namespace Rtcp

/-! ## Constants -/

def ptReceiverReport : UInt8 := 201
def ptPayloadSpecific : UInt8 := 206
def ptExtendedReports : UInt8 := 207

def subtypePictureLossIndicator : UInt8 := 1
def subtypeFeedback : UInt8 := 15

/-- Marks the application-defined feedback message as Cast's. -/
def castIdentifier : Bytes := [0x43, 0x41, 0x53, 0x54]

/-- Marks the frame-ACK extension that follows the loss fields. -/
def cst2Identifier : Bytes := [0x43, 0x53, 0x54, 0x32]

def receiverReferenceTimeBlockType : UInt8 := 4

/-- Each loss field is frame id, first packet id and bit vector. -/
def lossFieldSize : ℕ := 4

/-- The ACK bit vector is at least two octets. -/
def minAckBitvectorOctets : ℕ := 2

def maxAckBitvectorOctets : ℕ := 254

def maxLossFields : ℕ := 255

end Rtcp

/-! ## Feedback -/

/-- The echo of the sender's last Sender Report. -/
structure SenderReportEcho where
  reportId : UInt32
  delay : UInt32
  deriving DecidableEq

/-- Everything the receiver knows that the sender needs to hear. -/
structure Feedback where
  receiverSsrc : UInt32
  senderSsrc : UInt32
  checkpoint : ℤ
  playoutDelayMs : ℕ
  nacks : List PacketNack
  acks : List ℤ
  feedbackCount : UInt8
  pictureLoss : Bool
  ntpTimestamp : Option UInt64
  lastSenderReport : Option SenderReportEcho
  deriving DecidableEq

/-- How much of the feedback fitted into the packet. -/
structure BuildReport where
  lossFieldsWritten : ℕ
  nacksDropped : ℕ
  acksDropped : ℕ
  deriving DecidableEq

namespace Rtcp

/-! ## The parts of the compound packet -/

/-- A four-byte RTCP common header; the length counts 32-bit words. -/
def header (packetType countOrSubtype : UInt8) (payloadSize : ℕ) : Bytes :=
  [0b10000000 ||| countOrSubtype, packetType] ++ beBytes 2 (min (payloadSize / 4) 65535)

def ssrcBytes (ssrc : UInt32) : Bytes := beBytes 4 ssrc.toNat

/-- The receiver report, with one block once a Sender Report has been heard. -/
def receiverReport (feedback : Feedback) : Bytes :=
  match feedback.lastSenderReport with
  | some echo =>
    header ptReceiverReport 1 (4 + 24) ++ ssrcBytes feedback.receiverSsrc ++
      ssrcBytes feedback.senderSsrc ++ beBytes 4 0 ++ beBytes 4 0 ++ beBytes 4 0 ++
      beBytes 4 echo.reportId.toNat ++ beBytes 4 echo.delay.toNat
  | none => header ptReceiverReport 0 4 ++ ssrcBytes feedback.receiverSsrc

/-- The receiver reference time report, given a clock reading. -/
def referenceTimeReport (feedback : Feedback) : Bytes :=
  match feedback.ntpTimestamp with
  | some ntp =>
    header ptExtendedReports 0 (4 + 4 + 8) ++ ssrcBytes feedback.receiverSsrc ++
      [receiverReferenceTimeBlockType, 0] ++ beBytes 2 2 ++ beBytes 8 ntp.toNat
  | none => []

/-- The picture loss indicator, only while the picture is broken. -/
def pictureLossIndicator (feedback : Feedback) : Bytes :=
  if feedback.pictureLoss then
    header ptPayloadSpecific subtypePictureLossIndicator 8 ++
      ssrcBytes feedback.receiverSsrc ++ ssrcBytes feedback.senderSsrc
  else []

/-- What stands before the Cast feedback message. -/
def preamble (feedback : Feedback) : Bytes :=
  receiverReport feedback ++ referenceTimeReport feedback ++ pictureLossIndicator feedback

/-! ## Loss fields -/

/-- Fold the NACKs that follow `first` in the same frame into the bit vector, as
long as they land within the eight ids after it. -/
def foldLosses (frameId : ℤ) (first : ℕ) : List PacketNack → UInt8 → UInt8 × List PacketNack
  | [], bitVector => (bitVector, [])
  | nack :: rest, bitVector =>
    match nack.target with
    | .packet id =>
      if nack.frameId = frameId ∧ first < id.get ∧ id.get - first ≤ 8 then
        foldLosses frameId first rest (bitVector ||| 1 <<< UInt8.ofNat (id.get - first - 1))
      else (bitVector, nack :: rest)
    | .allPackets => (bitVector, nack :: rest)

theorem length_foldLosses_le (frameId : ℤ) (first : ℕ) (nacks : List PacketNack)
    (bitVector : UInt8) : (foldLosses frameId first nacks bitVector).2.length ≤ nacks.length := by
  induction nacks generalizing bitVector with
  | nil => exact le_rfl
  | cons nack rest ih =>
    rw [foldLosses]
    split
    · split
      · exact (ih _).trans (Nat.le_succ _)
      · exact le_rfl
    · exact le_rfl

def lossField (frameId : ℤ) (first : ℕ) (bitVector : UInt8) : Bytes :=
  FrameId.lower8Bits frameId :: beBytes 2 first ++ [bitVector]

/-- The loss fields for `nacks`, with `held` bytes before them and `written`
fields already among those, and the NACKs left over.  Room is reserved for the
ACK vector's header and minimum. -/
def lossFields (maxSize held written : ℕ) : List PacketNack → Bytes × ℕ × List PacketNack
  | [] => ([], written, [])
  | nack :: rest =>
    if written = maxLossFields ∨
        held + lossFieldSize + (6 + minAckBitvectorOctets) > maxSize then
      ([], written, nack :: rest)
    else
      let first := nack.target.wireValue
      let folded := foldLosses nack.frameId first rest 0
      let later := lossFields maxSize (held + lossFieldSize) (written + 1) folded.2
      (lossField nack.frameId first folded.1 ++ later.1, later.2)
termination_by nacks => nacks.length
decreasing_by
  have := length_foldLosses_le nack.frameId nack.target.wireValue rest 0
  simp only [List.length_cons]
  omega

/-- The NACKs worth sending: the sender knows that frames up to the checkpoint
arrived. -/
def relevantNacks (feedback : Feedback) : List PacketNack :=
  feedback.nacks.filter fun nack => nack.frameId > feedback.checkpoint

/-! ## The ACK bit vector -/

/-- The next legal size of the bit vector that has room for `needed` octets. -/
def grownOctets (needed : ℕ) : ℕ :=
  minAckBitvectorOctets + (needed - minAckBitvectorOctets + 3) / 4 * 4

/-- Set one bit of the vector, growing it if there is room; count the ACK as
dropped if there is not. -/
def setAck (firstFrame : ℤ) (available : ℕ) (state : Bytes × ℕ) (frameId : ℤ) : Bytes × ℕ :=
  let bitIndex := frameId - firstFrame
  if bitIndex < 0 then state
  else
    let bitIndex := bitIndex.toNat
    let octetIndex := bitIndex / 8
    if octetIndex ≥ state.1.length then
      let grown := grownOctets (octetIndex + 1)
      if grown > maxAckBitvectorOctets ∨ grown > available then (state.1, state.2 + 1)
      else (markBit (state.1 ++ .replicate (grown - state.1.length) 0) bitIndex, state.2)
    else (markBit state.1 bitIndex, state.2)

/-- The frame-ACK extension, with `held` bytes before it, and how many ACKs did
not fit.  Bit 0 of the first octet is the checkpoint plus two. -/
def ackFields (feedback : Feedback) (maxSize held : ℕ) : Bytes × ℕ :=
  if held + 6 + minAckBitvectorOctets > maxSize then ([], feedback.acks.length)
  else
    let set := feedback.acks.foldl
      (setAck (feedback.checkpoint + 2) (maxSize - (held + 6)))
      (.replicate minAckBitvectorOctets 0, 0)
    (cst2Identifier ++ [feedback.feedbackCount, UInt8.ofNat set.1.length] ++ set.1, set.2)

/-! ## The compound packet -/

def feedbackFixed (feedback : Feedback) (lossFieldsWritten : ℕ) : Bytes :=
  ssrcBytes feedback.receiverSsrc ++ ssrcBytes feedback.senderSsrc ++ castIdentifier ++
    [FrameId.lower8Bits feedback.checkpoint, UInt8.ofNat lossFieldsWritten] ++
    beBytes 2 feedback.playoutDelayMs

/-- Serialize the compound RTCP packet within `maxSize` bytes. -/
def build (feedback : Feedback) (maxSize : ℕ) : Bytes × BuildReport :=
  let before := preamble feedback
  let held := before.length + 20
  let losses := lossFields maxSize held 0 (relevantNacks feedback)
  let acks := ackFields feedback maxSize (held + losses.1.length)
  let body := feedbackFixed feedback losses.2.1 ++ losses.1 ++ acks.1
  (before ++ header ptPayloadSpecific subtypeFeedback body.length ++ body,
    { lossFieldsWritten := losses.2.1
      nacksDropped := losses.2.2.length
      acksDropped := acks.2 })

end Rtcp

end Castaway.Cast
