import Castaway.L2cap.Frame

/-!
# The Enhanced Retransmission Mode engine

The state machine of `ertm.rs` for one channel: segmentation of outgoing SDUs,
the send window, acknowledgement and retransmission, the two timers, and the
reassembly of incoming SDUs.

The source's methods change the engine in place and push into an output record.
Here a method takes both and returns both, so `out` names what the call under
way has produced so far.  Sequence numbers are natural numbers below 64 and the
saturating counters of the source saturate at the same bounds.  A call that
fails does so before it has changed anything, so `send` and `receive` return
the new engine inside the `Except`.
-/

namespace Castaway.L2cap

/-! ## Sequence numbers -/

/-- Sequence numbers are six bits. -/
def seqModulo : ℕ := 64

/-- The next sequence number, wrapping at 64. -/
def nextSeq (seq : ℕ) : ℕ := (seq + 1) % seqModulo

/-- How far `target` is ahead of `source`, modulo 64. -/
def distance (source target : ℕ) : ℕ := (target + seqModulo - source) % seqModulo

/-- Add to a counter that stops at `max`. -/
def saturatingSucc (max n : ℕ) : ℕ := min (n + 1) max

/-! ## The engine's state -/

/-- What the parties agreed on for one ERTM channel. -/
structure ErtmParameters where
  /-- Our identifier, needed to verify inbound checksums. -/
  localCid : Cid
  /-- The peer's identifier, needed to compute outbound ones. -/
  remoteCid : Cid
  fcs : FcsType
  /-- Largest segment we may put in one frame. -/
  sendMps : UInt16
  /-- Frames we may have unacknowledged. -/
  sendWindow : UInt8
  /-- Total transmissions of one frame before the channel is declared dead. -/
  maxTransmit : UInt8
  retransmissionTimeout : ℕ
  monitorTimeout : ℕ
  /-- Largest SDU we will reassemble. -/
  localMtu : UInt16
  deriving DecidableEq

/-- What one call into the engine produced. -/
structure ErtmOutput where
  /-- Payloads to write to the channel, in order. -/
  frames : List Bytes := []
  /-- SDUs that finished reassembling. -/
  sdus : List Bytes := []
  /-- Set when the channel has failed and must be torn down. -/
  failed : Bool := false
  deriving DecidableEq

namespace ErtmOutput

def isEmpty (out : ErtmOutput) : Bool := out.frames.isEmpty && out.sdus.isEmpty && !out.failed

def pushFrame (out : ErtmOutput) (frame : Bytes) : ErtmOutput :=
  { out with frames := out.frames ++ [frame] }

def pushSdu (out : ErtmOutput) (sdu : Bytes) : ErtmOutput :=
  { out with sdus := out.sdus ++ [sdu] }

def fail (out : ErtmOutput) : ErtmOutput := { out with failed := true }

section

variable (out : ErtmOutput)

@[simp] theorem frames_pushFrame (frame : Bytes) :
    (out.pushFrame frame).frames = out.frames ++ [frame] := rfl

@[simp] theorem sdus_pushFrame (frame : Bytes) :
    (out.pushFrame frame).sdus = out.sdus := rfl

@[simp] theorem frames_pushSdu (sdu : Bytes) :
    (out.pushSdu sdu).frames = out.frames := rfl

@[simp] theorem sdus_pushSdu (sdu : Bytes) :
    (out.pushSdu sdu).sdus = out.sdus ++ [sdu] := rfl

@[simp] theorem frames_fail : out.fail.frames = out.frames := rfl

@[simp] theorem sdus_fail : out.fail.sdus = out.sdus := rfl

end

end ErtmOutput

/-- A frame queued to be sent, or sent and not yet seen acknowledged. -/
structure Unacked where
  txSeq : ℕ := 0
  sar : Segmentation
  sduLen : Option UInt16 := none
  payload : Bytes
  transmissions : ℕ := 0
  deriving DecidableEq

/-- An SDU being put back together. -/
structure Reassembly where
  expected : ℕ
  buffer : Bytes
  deriving DecidableEq

/-- The ERTM engine for one channel. -/
structure Ertm where
  params : ErtmParameters
  nextTxSeq : ℕ := 0
  unacked : List Unacked := []
  queued : List Unacked := []
  remoteBusy : Bool := false
  /-- Poll attempts made without an answer. -/
  polls : ℕ := 0
  waitingForFinal : Bool := false
  retransmissionTimer : Option ℕ := none
  monitorTimer : Option ℕ := none
  expectedTxSeq : ℕ := 0
  /-- Whether we have already asked for a retransmission and are waiting for it.
  -/
  rejected : Bool := false
  reassembly : Option Reassembly := none
  /-- Frames discarded for a bad checksum or a length we could not honour. -/
  discarded : ℕ := 0

namespace Ertm

/-- Start an engine for a freshly configured channel. -/
def new (params : ErtmParameters) : Ertm := { params }

/-- Count a discarded frame, in 32 bits. -/
def discard (ertm : Ertm) : Ertm :=
  { ertm with discarded := saturatingSucc 4294967295 ertm.discarded }

/-! ## Frames -/

/-- A supervisory frame, acknowledging everything delivered so far. -/
def supervisory (ertm : Ertm) (function : Supervisory) (poll finalBit : Bool) : Bytes :=
  (Frame.supervisory function ertm.expectedTxSeq poll finalBit).encode
    ertm.params.remoteCid ertm.params.fcs

/-- A data frame, acknowledging everything delivered so far. -/
def encodeInformation (ertm : Ertm) (frame : Unacked) (finalBit : Bool) : Bytes :=
  (Frame.information frame.txSeq ertm.expectedTxSeq finalBit frame.sar frame.sduLen
    frame.payload).encode ertm.params.remoteCid ertm.params.fcs

/-! ## Sending -/

def armTimers (ertm : Ertm) : Ertm :=
  if ertm.unacked.isEmpty then { ertm with retransmissionTimer := none }
  else if ertm.retransmissionTimer.isNone && ertm.monitorTimer.isNone then
    { ertm with retransmissionTimer := some ertm.params.retransmissionTimeout }
  else ertm

/-- The loop of `pump`: send from the front of the queue while the window has
room. -/
def pumpQueue : List Unacked → Ertm → ErtmOutput → Ertm × ErtmOutput
  | [], ertm, out => ({ ertm with queued := [] }, out)
  | frame :: rest, ertm, out =>
    if ertm.unacked.length < ertm.params.sendWindow.toNat then
      let frame := { frame with txSeq := ertm.nextTxSeq, transmissions := 1 }
      pumpQueue rest
        { ertm with
          nextTxSeq := nextSeq ertm.nextTxSeq
          unacked := ertm.unacked ++ [frame] }
        (out.pushFrame (ertm.encodeInformation frame false))
    else ({ ertm with queued := frame :: rest }, out)

def pump (ertm : Ertm) (out : ErtmOutput) : Ertm × ErtmOutput :=
  if ertm.remoteBusy || ertm.waitingForFinal then (ertm, out)
  else
    let sent := pumpQueue ertm.queued ertm out
    (sent.1.armTimers, sent.2)

/-- The frames after the first of a segmented SDU, `mps` bytes each. -/
def laterSegments (mps : ℕ) (hmps : 0 < mps) : Bytes → List Unacked
  | [] => []
  | byte :: rest =>
    { sar := if (byte :: rest).length ≤ mps then .end_ else .continuation
      payload := (byte :: rest).take mps } ::
    laterSegments mps hmps ((byte :: rest).drop mps)
termination_by rest => rest.length
decreasing_by
  simp only [List.length_drop, List.length_cons]
  omega

/-- The frames that carry one SDU.  The start frame spends two of its payload
bytes on the SDU's length, so it holds less data than the ones after it. -/
def segments (sendMps : UInt16) (sdu : Bytes) : List Unacked :=
  let mps := max sendMps.toNat 1
  if sdu.length ≤ mps then [{ sar := .unsegmented, payload := sdu }]
  else
    let first := max (mps - 2) 1
    { sar := .start, sduLen := some (.ofNat sdu.length), payload := sdu.take first } ::
      laterSegments mps (by omega) (sdu.drop first)

/-- Queue an SDU, segmenting it across as many frames as the negotiated MPS
needs. -/
def send (ertm : Ertm) (sdu : Bytes) : Except L2capError (Ertm × ErtmOutput) :=
  if sdu.length > 65535 then .error (.tooLong sdu.length 65535)
  else
    .ok (({ ertm with queued := ertm.queued ++ segments ertm.params.sendMps sdu } : Ertm).pump {})

/-! ## Acknowledgement and retransmission -/

/-- Retire every frame the peer says it has received.  "Below `reqSeq`" is
modulo 64, so the comparison is a distance. -/
def acknowledge (ertm : Ertm) (reqSeq : ℕ) : Ertm :=
  let unacked := ertm.unacked.dropWhile fun front =>
    decide (distance front.txSeq reqSeq ≠ 0 ∧ distance front.txSeq reqSeq ≤ seqModulo / 2)
  { ertm with
    unacked
    retransmissionTimer := if unacked.isEmpty then none else ertm.retransmissionTimer }

/-- Record the number of transmissions of the first frame numbered `txSeq`. -/
def setTransmissions (txSeq attempts : ℕ) : List Unacked → List Unacked
  | [] => []
  | frame :: rest =>
    if frame.txSeq = txSeq then { frame with transmissions := attempts } :: rest
    else frame :: setTransmissions txSeq attempts rest

def retransmit (ertm : Ertm) (frame : Unacked) (out : ErtmOutput) : Ertm × ErtmOutput :=
  let attempts := saturatingSucc 255 frame.transmissions
  if attempts > ertm.params.maxTransmit.toNat then (ertm, out.fail)
  else
    ({ ertm with
        unacked := setTransmissions frame.txSeq attempts ertm.unacked
        retransmissionTimer := some ertm.params.retransmissionTimeout },
      out.pushFrame (ertm.encodeInformation frame false))

/-- The loop of `retransmit_all`, over the frames that were unacknowledged when
it began. -/
def retransmitEach : List Unacked → Ertm → ErtmOutput → Ertm × ErtmOutput
  | [], ertm, out => (ertm, out)
  | frame :: rest, ertm, out =>
    let sent := ertm.retransmit frame out
    retransmitEach rest sent.1 sent.2

def retransmitAll (ertm : Ertm) (out : ErtmOutput) : Ertm × ErtmOutput :=
  retransmitEach ertm.unacked ertm out

def retransmitOne (ertm : Ertm) (txSeq : ℕ) (out : ErtmOutput) : Ertm × ErtmOutput :=
  match ertm.unacked.find? fun frame => frame.txSeq == txSeq with
  | some frame => ertm.retransmit frame out
  | none => (ertm, out)

/-! ## Receiving -/

def onSupervisory (ertm : Ertm) (function : Supervisory) (reqSeq : ℕ) (poll : Bool)
    (out : ErtmOutput) : Ertm × ErtmOutput :=
  let answered : Ertm × ErtmOutput :=
    match function with
    | .receiverNotReady => ({ ertm with remoteBusy := true }, out)
    | .receiverReady => ({ ertm with remoteBusy := false }, out)
    | .reject => ({ ertm with remoteBusy := false } : Ertm).retransmitAll out
    | .selectiveReject => ({ ertm with remoteBusy := false } : Ertm).retransmitOne reqSeq out
    | .other _ => (ertm, out)
  if poll then
    (answered.1, answered.2.pushFrame (answered.1.supervisory .receiverReady false true))
  else answered

/-- Put one segment, the expected one, into the SDU being reassembled. -/
def reassemble (ertm : Ertm) (sar : Segmentation) (sduLen : Option UInt16) (payload : Bytes)
    (out : ErtmOutput) : Ertm × ErtmOutput :=
  match sar with
  | .unsegmented => ({ ertm with reassembly := none }, out.pushSdu payload)
  | .start =>
    let expected := (sduLen.getD 0).toNat
    -- A peer announcing more than the MTU it agreed to is not allocated for.
    if expected > ertm.params.localMtu.toNat then
      ({ ertm.discard with reassembly := none }, out)
    else
      ({ ertm with reassembly := some ⟨expected, payload⟩ }, out)
  | .continuation =>
    match ertm.reassembly with
    | some state =>
      ({ ertm with reassembly := some { state with buffer := state.buffer ++ payload } }, out)
    | none => (ertm.discard, out)
  | .end_ =>
    match ertm.reassembly with
    | some state =>
      let buffer := state.buffer ++ payload
      if buffer.length = state.expected then
        ({ ertm with reassembly := none }, out.pushSdu buffer)
      else
        ({ ertm.discard with reassembly := none }, out)
    | none => (ertm.discard, out)

def onInformation (ertm : Ertm) (txSeq : ℕ) (sar : Segmentation) (sduLen : Option UInt16)
    (payload : Bytes) (out : ErtmOutput) : Ertm × ErtmOutput :=
  if txSeq ≠ ertm.expectedTxSeq then
    -- A duplicate or a gap: both are answered with where we are, and a gap is
    -- rejected, but only once.
    if !ertm.rejected && decide (distance ertm.expectedTxSeq txSeq < seqModulo / 2) then
      let ertm := { ertm with rejected := true }
      (ertm, out.pushFrame (ertm.supervisory .reject false false))
    else
      (ertm, out.pushFrame (ertm.supervisory .receiverReady false false))
  else
    let taken := ({ ertm with
      rejected := false
      expectedTxSeq := nextSeq ertm.expectedTxSeq } : Ertm).reassemble sar sduLen payload out
    (taken.1, taken.2.pushFrame (taken.1.supervisory .receiverReady false false))

/-- Whether a frame says itself which frames it wants again. -/
def namesItsOwn : Frame → Bool
  | .supervisory .reject _ _ _ => true
  | .supervisory .selectiveReject _ _ _ => true
  | _ => false

/-- Take the answer to our poll, if we are waiting for one and this is it. -/
def takeFinal (ertm : Ertm) (frame : Frame) (out : ErtmOutput) : Ertm × ErtmOutput :=
  if frame.finalBit && ertm.waitingForFinal then
    let ertm := { ertm with waitingForFinal := false, monitorTimer := none, polls := 0 }
    if namesItsOwn frame then (ertm, out) else ertm.retransmitAll out
  else (ertm, out)

def dispatch (ertm : Ertm) (frame : Frame) (out : ErtmOutput) : Ertm × ErtmOutput :=
  match frame with
  | .supervisory function reqSeq poll _ => ertm.onSupervisory function reqSeq poll out
  | .information txSeq _ _ sar sduLen payload => ertm.onInformation txSeq sar sduLen payload out

/-- Everything `receive` does with a frame that decoded.  An acknowledgement
rides on every frame, so it is taken before the frame's own business. -/
def receiveFrame (ertm : Ertm) (frame : Frame) : Ertm × ErtmOutput :=
  let final := (ertm.acknowledge frame.reqSeq).takeFinal frame {}
  let handled := final.1.dispatch frame final.2
  let pumped := handled.1.pump handled.2
  (pumped.1.armTimers, pumped.2)

/-- Feed one inbound L2CAP payload.  A frame with a bad checksum is counted and
dropped. -/
def receive (ertm : Ertm) (payload : Bytes) : Except L2capError (Ertm × ErtmOutput) :=
  match Frame.decode payload ertm.params.localCid ertm.params.fcs with
  | .ok frame => .ok (ertm.receiveFrame frame)
  | .error (.badFcs ..) => .ok (ertm.discard, {})
  | .error other => .error other

/-! ## Time -/

/-- Ask the peer where it has got to, and start waiting for the answer. -/
def poll (ertm : Ertm) (out : ErtmOutput) : Ertm × ErtmOutput :=
  ({ ertm with
      polls := saturatingSucc 255 ertm.polls
      waitingForFinal := true
      monitorTimer := some ertm.params.monitorTimeout
      retransmissionTimer := none },
    out.pushFrame (ertm.supervisory .receiverReady true false))

/-- What the timers do, before anything more is sent. -/
def runTimers (ertm : Ertm) (elapsed : ℕ) : Ertm × ErtmOutput :=
  match ertm.monitorTimer, ertm.retransmissionTimer with
  | some remaining, _ =>
    if remaining - elapsed = 0 then
      let ertm := { ertm with monitorTimer := none }
      if ertm.polls ≥ ertm.params.maxTransmit.toNat then (ertm, ErtmOutput.fail {})
      else ertm.poll {}
    else ({ ertm with monitorTimer := some (remaining - elapsed) }, {})
  | none, some remaining =>
    if remaining - elapsed = 0 then
      ({ ertm with retransmissionTimer := none } : Ertm).poll {}
    else ({ ertm with retransmissionTimer := some (remaining - elapsed) }, {})
  | none, none => (ertm, {})

/-- Advance time by `elapsed`. -/
def tick (ertm : Ertm) (elapsed : ℕ) : Ertm × ErtmOutput :=
  let timed := ertm.runTimers elapsed
  if timed.2.failed || timed.2.isEmpty then timed else timed.1.pump timed.2

/-- How long until something needs doing, if anything does. -/
def nextTimeout (ertm : Ertm) : Option ℕ := ertm.monitorTimer <|> ertm.retransmissionTimer

/-! ## The parameters never change -/

@[simp] theorem params_discard (ertm : Ertm) : ertm.discard.params = ertm.params := rfl

@[simp] theorem params_armTimers (ertm : Ertm) : ertm.armTimers.params = ertm.params := by
  unfold armTimers
  split
  · rfl
  · split <;> rfl

@[simp] theorem params_pumpQueue (queue : List Unacked) (ertm : Ertm) (out : ErtmOutput) :
    (pumpQueue queue ertm out).1.params = ertm.params := by
  induction queue generalizing ertm out with
  | nil => rfl
  | cons frame rest ih =>
    unfold pumpQueue
    split
    · exact ih ..
    · rfl

@[simp] theorem params_pump (ertm : Ertm) (out : ErtmOutput) :
    (ertm.pump out).1.params = ertm.params := by
  unfold pump
  split
  · rfl
  · simp

@[simp] theorem params_acknowledge (ertm : Ertm) (reqSeq : ℕ) :
    (ertm.acknowledge reqSeq).params = ertm.params := rfl

@[simp] theorem params_retransmit (ertm : Ertm) (frame : Unacked) (out : ErtmOutput) :
    (ertm.retransmit frame out).1.params = ertm.params := by
  unfold retransmit
  dsimp only
  split <;> rfl

@[simp] theorem params_retransmitEach (frames : List Unacked) (ertm : Ertm) (out : ErtmOutput) :
    (retransmitEach frames ertm out).1.params = ertm.params := by
  induction frames generalizing ertm out with
  | nil => rfl
  | cons frame rest ih =>
    unfold retransmitEach
    rw [ih, params_retransmit]

section

variable (ertm : Ertm)

@[simp] theorem params_retransmitAll (out : ErtmOutput) :
    (ertm.retransmitAll out).1.params = ertm.params := params_retransmitEach ..

@[simp] theorem params_retransmitOne (txSeq : ℕ) (out : ErtmOutput) :
    (ertm.retransmitOne txSeq out).1.params = ertm.params := by
  unfold retransmitOne
  split
  · exact params_retransmit ..
  · rfl

@[simp] theorem params_onSupervisory (function : Supervisory) (reqSeq : ℕ)
    (poll : Bool) (out : ErtmOutput) :
    (ertm.onSupervisory function reqSeq poll out).1.params = ertm.params := by
  unfold onSupervisory
  cases function <;> cases poll <;> simp

@[simp] theorem params_reassemble (sar : Segmentation) (sduLen : Option UInt16)
    (payload : Bytes) (out : ErtmOutput) :
    (ertm.reassemble sar sduLen payload out).1.params = ertm.params := by
  unfold reassemble
  cases sar with
  | unsegmented => rfl
  | start => dsimp only; split <;> rfl
  | continuation => cases ertm.reassembly <;> rfl
  | end_ =>
    cases ertm.reassembly with
    | none => rfl
    | some state => dsimp only; split <;> rfl

@[simp] theorem params_onInformation (txSeq : ℕ) (sar : Segmentation)
    (sduLen : Option UInt16) (payload : Bytes) (out : ErtmOutput) :
    (ertm.onInformation txSeq sar sduLen payload out).1.params = ertm.params := by
  unfold onInformation
  split
  · split <;> rfl
  · simp

@[simp] theorem params_takeFinal (frame : Frame) (out : ErtmOutput) :
    (ertm.takeFinal frame out).1.params = ertm.params := by
  unfold takeFinal
  split
  · dsimp only
    split <;> simp
  · rfl

@[simp] theorem params_receiveFrame (frame : Frame) :
    (ertm.receiveFrame frame).1.params = ertm.params := by
  cases frame <;> simp [receiveFrame, dispatch]

end

theorem params_receive {ertm ertm' : Ertm} {payload : Bytes} {out : ErtmOutput}
    (h : ertm.receive payload = .ok (ertm', out)) : ertm'.params = ertm.params := by
  unfold receive at h
  split at h
  next frame _ =>
    have hframe : ertm.receiveFrame frame = (ertm', out) := Except.ok.inj h
    rw [← params_receiveFrame ertm frame, hframe]
  · cases h
    rfl
  · cases h

theorem params_send {ertm ertm' : Ertm} {sdu : Bytes} {out : ErtmOutput}
    (h : ertm.send sdu = .ok (ertm', out)) : ertm'.params = ertm.params := by
  unfold send at h
  split at h
  · cases h
  · have hpump := congrArg Prod.fst (Except.ok.inj h)
    rw [show ertm' = _ from hpump.symm, params_pump]

@[simp] theorem params_tick (ertm : Ertm) (elapsed : ℕ) :
    (ertm.tick elapsed).1.params = ertm.params := by
  have htimers : (ertm.runTimers elapsed).1.params = ertm.params := by
    unfold runTimers
    split
    · dsimp only
      split
      · split <;> rfl
      · rfl
    · split <;> rfl
    · rfl
  unfold tick
  dsimp only
  split
  · exact htimers
  · rw [params_pump, htimers]

end Ertm

end Castaway.L2cap
