import Castaway.Cast.Rtcp

/-!
# The Cast mirroring receiver

`receiver.rs`: a sliding window of frame collectors, the checkpoint the sender
hears about, and the choice of the next frame for the decoder.  A call returns
the new receiver with its result; a datagram that does not parse changes
nothing.

The source's loops over frame ids run from one id up to another; here each
recurses on the number of ids left.
-/

namespace Castaway.Cast

/-- How many frames may be in flight before the receiver stops accepting new
ones. -/
def maxUnackedFrames : ℤ := 120

/-- The playout delay assumed until a sender asks for a different one. -/
def defaultPlayoutDelayMs : ℕ := 400

/-- What a datagram did to the receiver's state. -/
inductive Received where
  | progress (frameId : ℤ)
  | frameComplete (frameId : ℤ)
  | duplicate (frameId : ℤ)
  | tooOld (frameId : ℤ)
  | tooFar (frameId : ℤ)
  | inconsistent (error : CollectError)
  deriving DecidableEq

/-- When the receiver may abandon frames to keep playing. -/
inductive Consume where
  | inOrder
  | skipToDecodable
  deriving DecidableEq

/-- A frame handed to the decoder, and how many were abandoned to reach it. -/
structure Delivered where
  frame : EncryptedFrame
  skipped : ℕ
  deriving DecidableEq

/-- A sliding window of frames under assembly. -/
structure CastRtpReceiver where
  stream : CastRtpStream
  receiverSsrc : UInt32
  pending : Std.TreeMap ℤ FrameCollector := ∅
  lastDelivered : ℤ := FrameId.leader
  checkpoint : ℤ := FrameId.leader
  latestExpected : ℤ := FrameId.leader
  playoutDelayMs : ℕ := defaultPlayoutDelayMs
  feedbackCount : UInt8 := 0
  pictureLoss : Bool := false
  lastKeyFrame : Option ℤ := none

namespace CastRtpReceiver

def new (senderSsrc receiverSsrc : UInt32) : CastRtpReceiver :=
  { stream := { senderSsrc }, receiverSsrc }

/-! ## The checkpoint -/

/-- As far past `checkpoint` as the run of complete frames allows, at most
`count` frames. -/
def runOfComplete (pending : Std.TreeMap ℤ FrameCollector) (checkpoint : ℤ) : ℕ → ℤ
  | 0 => checkpoint
  | count + 1 =>
    if (pending[FrameId.next checkpoint]?).any FrameCollector.isComplete then
      runOfComplete pending (FrameId.next checkpoint) count
    else checkpoint

/-- Move the checkpoint, then as far past it as the run of complete frames
allows, and forget the delivered frames it covers. -/
def advanceCheckpoint (receiver : CastRtpReceiver) (newCheckpoint : ℤ) : CastRtpReceiver :=
  let checkpoint := runOfComplete receiver.pending newCheckpoint
    (receiver.latestExpected - newCheckpoint).toNat
  { receiver with
    checkpoint
    pending := receiver.pending.filter fun frameId _ =>
      decide (frameId > checkpoint ∨ frameId > receiver.lastDelivered) }

/-! ## Receiving -/

/-- Give each of `count` frames from `next` on an empty collector. -/
def expectFrames (pending : Std.TreeMap ℤ FrameCollector) (next : ℤ) :
    ℕ → Std.TreeMap ℤ FrameCollector
  | 0 => pending
  | count + 1 => expectFrames (pending.insert next (.new next)) (FrameId.next next) count

/-- Extend the horizon to `frameId`, so that wholly lost frames are asked for.
-/
def extendTo (receiver : CastRtpReceiver) (frameId : ℤ) : CastRtpReceiver :=
  { receiver with
    pending := expectFrames receiver.pending (FrameId.next receiver.latestExpected)
      (frameId - receiver.latestExpected).toNat
    latestExpected := frameId }

/-- What follows once a packet has filled a hole in `collector`. -/
def accepted (receiver : CastRtpReceiver) (packet : CastRtpPacket) (collector : FrameCollector) :
    CastRtpReceiver × Received :=
  let frameId := packet.frameId
  let receiver := { receiver with
    playoutDelayMs :=
      if packet.packetId = .zero then packet.newPlayoutDelayMs.getD receiver.playoutDelayMs
      else receiver.playoutDelayMs }
  if !collector.isComplete then (receiver, .progress frameId)
  else
    let receiver :=
      if collector.header.map FrameHeader.dependency = some .keyFrame then
        { receiver with pictureLoss := false, lastKeyFrame := some frameId }
      else receiver
    let receiver :=
      if frameId = FrameId.next receiver.checkpoint then receiver.advanceCheckpoint frameId
      else receiver
    (receiver, .frameComplete frameId)

def collectPacket (receiver : CastRtpReceiver) (packet : CastRtpPacket) :
    CastRtpReceiver × Received :=
  let frameId := packet.frameId
  match receiver.pending[frameId]? with
  | none => (receiver, .tooOld frameId)
  | some collector =>
    let collected := collector.collect packet
    let receiver := { receiver with pending := receiver.pending.insert frameId collected.1 }
    match collected.2 with
    | .ok .new => receiver.accepted packet collected.1
    | .ok .duplicate => (receiver, .duplicate frameId)
    | .error error => (receiver, .inconsistent error)

def receivePacket (receiver : CastRtpReceiver) (packet : CastRtpPacket) :
    CastRtpReceiver × Received :=
  let frameId := packet.frameId
  if frameId ≤ receiver.checkpoint then (receiver, .tooOld frameId)
  else if frameId > receiver.latestExpected then
    -- Growing past the window would make eight-bit frame ids ambiguous.
    if frameId > receiver.lastDelivered + maxUnackedFrames then (receiver, .tooFar frameId)
    else (receiver.extendTo frameId).collectPacket packet
  else receiver.collectPacket packet

def receive (receiver : CastRtpReceiver) (datagram : Bytes) :
    Except RtpError (CastRtpReceiver × Received) :=
  match receiver.stream.parse datagram with
  | .ok (packet, stream) => .ok ({ receiver with stream : CastRtpReceiver }.receivePacket packet)
  | .error error => .error error

/-! ## Delivering -/

/-- The frame to deliver, among the `count` frames from `candidate` on. -/
def findTarget (receiver : CastRtpReceiver) (policy : Consume) (candidate : ℤ) : ℕ → Option ℤ
  | 0 => none
  | count + 1 =>
    match receiver.pending[candidate]? with
    | none => none
    | some collector =>
      if collector.isComplete then
        let independent :=
          collector.header.any fun header => header.dependency != .dependent
        if candidate = FrameId.next receiver.lastDelivered then some candidate
        else if policy = .skipToDecodable ∧ independent = true then some candidate
        else receiver.findTarget policy (FrameId.next candidate) count
      else if policy = .inOrder then none
      else receiver.findTarget policy (FrameId.next candidate) count

/-- Forget `count` frames from `dropped` on. -/
def dropFrames (pending : Std.TreeMap ℤ FrameCollector) (dropped : ℤ) :
    ℕ → Std.TreeMap ℤ FrameCollector
  | 0 => pending
  | count + 1 => dropFrames (pending.erase dropped) (FrameId.next dropped) count

/-- Hand out the frame `target`, abandoning those in front of it. -/
def deliver (receiver : CastRtpReceiver) (target : ℤ) : CastRtpReceiver × Option Delivered :=
  let immediate := FrameId.next receiver.lastDelivered
  let skipped := (target - immediate).toNat
  let pending := dropFrames receiver.pending immediate skipped
  let removed := { receiver with pending := pending.erase target }
  match pending[target]?.bind FrameCollector.takeFrame with
  | none => (removed, none)
  | some frame =>
    let receiver := { removed with lastDelivered := target }
    let receiver :=
      if target > receiver.checkpoint then receiver.advanceCheckpoint target else receiver
    (receiver, some { frame, skipped })

/-- Take the next frame for the decoder, if one is ready under `policy`. -/
def nextFrame (receiver : CastRtpReceiver) (policy : Consume) :
    CastRtpReceiver × Option Delivered :=
  match receiver.findTarget policy (FrameId.next receiver.lastDelivered)
      (receiver.latestExpected - receiver.lastDelivered).toNat with
  | none => (receiver, none)
  | some target => receiver.deliver target

/-! ## Feedback -/

/-- Ask the sender for a fresh key frame, unless one is already on its way. -/
def requestKeyFrame (receiver : CastRtpReceiver) : CastRtpReceiver :=
  if receiver.lastKeyFrame.any fun id => decide (receiver.lastDelivered ≥ id) then
    { receiver with pictureLoss := true }
  else receiver

def aboveCheckpoint (receiver : CastRtpReceiver) : List (ℤ × FrameCollector) :=
  receiver.pending.toList.filter fun entry => decide (FrameId.next receiver.checkpoint ≤ entry.1)

/-- Build the feedback describing what has and has not arrived. -/
def feedback (receiver : CastRtpReceiver) (ntpTimestamp : Option UInt64) :
    CastRtpReceiver × Feedback :=
  ({ receiver with feedbackCount := receiver.feedbackCount + 1 },
    { receiverSsrc := receiver.receiverSsrc
      senderSsrc := receiver.stream.senderSsrc
      checkpoint := receiver.checkpoint
      playoutDelayMs := receiver.playoutDelayMs
      nacks := receiver.aboveCheckpoint.flatMap fun entry =>
        if entry.2.isComplete then [] else entry.2.missingPackets
      acks := receiver.aboveCheckpoint.filterMap fun entry =>
        if entry.2.isComplete then some entry.1 else none
      feedbackCount := receiver.feedbackCount
      pictureLoss := receiver.pictureLoss
      ntpTimestamp
      lastSenderReport := none })

end CastRtpReceiver

end Castaway.Cast
