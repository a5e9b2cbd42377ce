import Castaway.L2cap.ErtmPace

/-!
# The send window and the budget of transmissions

What the sending half of the engine keeps over any calls, whatever a peer puts
into the frames that `receive` is given.  Transmissions are counted on the wire:
`Sender.copies` counts how often each frame taken off the queue was among what
the calls produced.

## Strategy

A call is some touches and then a drained queue, so `Pace` gives its `Outcome`.
The timers are apart from that (`Timed`): a poll that is under way has its
timer, and every call that ends without a failure arms one for frames that are
unacknowledged.
-/

namespace Castaway.L2cap

open List

/-! ## Runs of one engine -/

/-- A call into the engine. -/
inductive Ertm.Call
  | send (sdu : Bytes)
  | receive (payload : Bytes)
  | tick (elapsed : ℕ)

/-- Make a call; nothing comes of one that returns an error. -/
def Ertm.perform (ertm : Ertm) : Ertm.Call → Option (Ertm × ErtmOutput)
  | .send sdu => (ertm.send sdu).toOption
  | .receive payload => (ertm.receive payload).toOption
  | .tick elapsed => some (ertm.tick elapsed)

def Ertm.Call.queues (params : ErtmParameters) : Ertm.Call → ℕ
  | .send sdu => (Ertm.segments params.sendMps sdu).length
  | _ => 0

structure Sender where
  engine : Ertm
  /-- The frames taken off the queue so far, in order, are numbered from 0. -/
  taken : ℕ := 0
  /-- How often each of them was put on the wire. -/
  copies : ℕ → ℕ := fun _ => 0
  /-- The frames the last call took off the queue. -/
  fresh : ℕ := 0
  /-- What the last call produced. -/
  out : ErtmOutput := {}
  /-- Whether a call has reported failure. -/
  failed : Bool := false

namespace Sender

def base (s : Sender) : ℕ := s.taken - s.engine.unacked.length

/-- Note what a call produced.  A data frame on the wire is a transmission of
the unacknowledged frame that has its number modulo 64. -/
def record (s : Sender) (queues : ℕ) (result : Ertm × ErtmOutput) : Sender :=
  let fresh := s.engine.queued.length + queues - result.1.queued.length
  let taken := s.taken + fresh
  { engine := result.1
    taken
    copies := fun n =>
      if taken - result.1.unacked.length ≤ n ∧ n < taken then
        s.copies n + (dataSeqs result.1.params result.2.frames).count (n % seqModulo)
      else s.copies n
    fresh
    out := result.2
    failed := s.failed || result.2.failed }

def call (s : Sender) (c : Ertm.Call) : Sender :=
  match s.engine.perform c with
  | some result => s.record (c.queues s.engine.params) result
  | none => { s with fresh := 0, out := {} }

def run (params : ErtmParameters) (calls : List Ertm.Call) : Sender :=
  calls.foldl call { engine := .new params }

end Sender

/-! ## What is claimed of it -/

/-- Sequence numbers that follow on each other modulo 64, up to the one before
`next`. -/
def EndsBelow : List ℕ → ℕ → Prop
  | [], _ => True
  | [seq], next => nextSeq seq = next
  | seq :: seq' :: rest, next => nextSeq seq = seq' ∧ EndsBelow (seq' :: rest) next

/-- What holds of a sender when a call returns. -/
structure Disciplined (s : Sender) : Prop where
  consecutive : EndsBelow (s.engine.unacked.map Unacked.txSeq) s.engine.nextTxSeq
  window : s.engine.unacked.length ≤ s.engine.params.sendWindow.toNat
  /-- The frames numbered from `base` up to `taken` are the unacknowledged ones.
  -/
  budget : 1 ≤ s.engine.params.maxTransmit.toNat → s.engine.params.maxTransmit.toNat ≤ 254 →
    s.engine.params.sendWindow.toNat ≤ 64 →
      ∀ n, s.base ≤ n → n < s.taken → s.copies n ≤ s.engine.params.maxTransmit.toNat
  /-- Once frames are taken off the queue nothing sets either flag until the
  call returns. -/
  paused : s.fresh ≠ 0 → s.engine.remoteBusy = false ∧ s.engine.waitingForFinal = false
  sized : 3 ≤ s.engine.params.sendMps.toNat → ∀ bytes ∈ s.out.frames, ∀ seq segment,
    dataFrame? s.engine.params bytes = some (seq, segment) →
      segment.size ≤ s.engine.params.sendMps.toNat
  armed : s.failed = false → s.engine.unacked ≠ [] → s.engine.nextTimeout.isSome

section Outcome

variable {params : ErtmParameters} {base : ℕ} {copies : ℕ → ℕ} {ertm : Ertm} {out : ErtmOutput}

/-! ## One call -/

/-- What a call that puts `queues` frames on the queue leaves behind: some of
the oldest frames are retired, and `n` are taken off the queue. -/
def Outcome (params : ErtmParameters) (base : ℕ) (copies : ℕ → ℕ) (before : Ertm) (queues : ℕ)
    (result : Ertm × ErtmOutput) : Prop :=
  ∃ base' n, Pace params base' copies result ∧
    base' + result.1.unacked.length = base + before.unacked.length + n ∧
    result.1.queued.length + n = before.queued.length + queues ∧
    (n ≠ 0 → result.1.remoteBusy = false ∧ result.1.waitingForFinal = false)

/-- The last thing a call does is to drain the queue. -/
theorem Pace.outcome {before : Ertm} {base' queues : ℕ} (h : Pace params base' copies (ertm, out))
    (hunacked : base' + ertm.unacked.length = base + before.unacked.length)
    (hqueued : ertm.queued.length = before.queued.length + queues) :
    Outcome params base copies before queues (ertm.pump out) := by
  obtain ⟨hpace, n, hmoved, hpaused⟩ := h.pump
  obtain ⟨hbusy, hwaiting, -⟩ := flags_pump ertm out
  refine ⟨base', n, hpace, ?_, ?_, fun hn => ?_⟩
  · rw [hmoved.unacked, ← hunacked, Nat.add_assoc]
  · rw [hmoved.queued, hqueued]
  · rw [hbusy, hwaiting]
    exact hpaused hn

section

variable (h : Pace params base copies (ertm, {}))
include h

theorem Pace.send {sdu : Bytes} {result : Ertm × ErtmOutput} (hsend : ertm.send sdu = .ok result) :
    Outcome params base copies ertm (Ertm.segments params.sendMps sdu).length result := by
  have hparams : ertm.params = params := h.params_eq
  subst hparams
  unfold Ertm.send at hsend
  split at hsend
  · cases hsend
  · cases hsend
    have hmem : ∀ segment ∈ (ertm.unacked ++
        (ertm.queued ++ Ertm.segments ertm.params.sendMps sdu)).map Unacked.segment,
          segment ∈ (ertm.unacked ++ ertm.queued).map Unacked.segment ∨
            segment ∈ segmentsOf ertm.params.sendMps sdu := by
      intro segment hsegment
      rw [← append_assoc, map_append] at hsegment
      exact mem_append.mp hsegment
    have hqueue : Pace ertm.params base copies
        ({ ertm with queued := ertm.queued ++ Ertm.segments ertm.params.sendMps sdu }, {}) := by
      refine { h with wellFormed := ?_, small := ?_ }
      · intro segment hsegment
        rcases hmem segment hsegment with hsegment | hsegment
        · exact h.wellFormed segment hsegment
        · exact segmentsOf_wellFormed ertm.params.sendMps sdu segment hsegment
      · intro hmps segment hsegment
        rcases hmem segment hsegment with hsegment | hsegment
        · exact h.small hmps segment hsegment
        · obtain ⟨frame, hframe, rfl⟩ := mem_map.mp hsegment
          exact segments_size hmps sdu frame hframe
    exact @Pace.outcome ertm.params base copies _ _ ertm base _ hqueue rfl length_append

theorem Pace.receiveFrame (frame : Frame) :
    Outcome params base copies ertm 0 (ertm.receiveFrame frame) := by
  obtain ⟨base', hretired, hunacked, hqueued⟩ := h.acknowledge frame.reqSeq
  have htouches : Touches (ertm.acknowledge frame.reqSeq, {})
      (((ertm.acknowledge frame.reqSeq).takeFinal frame {}).1.dispatch frame
        ((ertm.acknowledge frame.reqSeq).takeFinal frame {}).2) :=
    (Ertm.touches_takeFinal frame).trans (Ertm.touches_dispatch frame)
  generalize hhandled : ((ertm.acknowledge frame.reqSeq).takeFinal frame {}).1.dispatch frame
    ((ertm.acknowledge frame.reqSeq).takeFinal frame {}).2 = handled at htouches
  have hresult : ertm.receiveFrame frame =
      ((handled.1.pump handled.2).1.armTimers, (handled.1.pump handled.2).2) := by
    rw [← hhandled]
    rfl
  obtain ⟨hpace, hunacked', hqueued'⟩ := hretired.touches htouches
  have hsame : base' + handled.1.unacked.length = base + ertm.unacked.length := by
    rw [hunacked']
    exact hunacked
  have hkept : handled.1.queued.length = ertm.queued.length + 0 := by
    rw [hqueued']
    exact congrArg List.length hqueued
  obtain ⟨base'', n, hpumped, hsum, hrest, hpaused⟩ :=
    @Pace.outcome params base copies handled.1 handled.2 ertm base' 0 hpace hsame hkept
  have harmed := sameHalf_armTimers (handled.1.pump handled.2).1
  obtain ⟨hbusy, hwaiting, -⟩ := flags_armTimers (handled.1.pump handled.2).1
  rw [hresult]
  refine ⟨base'', n, hpumped.quiet harmed rfl, ?_, ?_, fun hn => ?_⟩
  · rw [← hsum, ← harmed.unacked]
  · rw [← hrest, ← harmed.queued]
  · obtain ⟨hbusy', hwaiting'⟩ := hpaused hn
    exact ⟨hbusy.trans hbusy', hwaiting.trans hwaiting'⟩

theorem Pace.tick (elapsed : ℕ) :
    Outcome params base copies ertm 0 (ertm.tick elapsed) := by
  obtain ⟨hpace, hunacked, hqueued⟩ := h.touches (Ertm.touches_runTimers elapsed)
  unfold Ertm.tick
  dsimp only
  generalize ertm.runTimers elapsed = timed at hpace hunacked hqueued ⊢
  split
  · exact ⟨base, 0, hpace, congrArg (base + ·) hunacked, congrArg List.length hqueued,
      fun hn => absurd rfl hn⟩
  · exact @Pace.outcome params base copies timed.1 timed.2 ertm base 0 hpace
      (congrArg (base + ·) hunacked) (congrArg List.length hqueued)

end

end Outcome

/-! ## Timers -/

namespace Ertm

/-- A poll that is under way has its timer, and frames that are unacknowledged
have one. -/
structure Timed (ertm : Ertm) : Prop where
  monitor : ertm.waitingForFinal = ertm.monitorTimer.isSome
  armed : ertm.unacked ≠ [] → ertm.nextTimeout.isSome

variable {ertm : Ertm}

theorem armed_armTimers (ertm : Ertm) (h : ertm.armTimers.unacked ≠ []) :
    ertm.armTimers.nextTimeout.isSome := by
  rw [(sameHalf_armTimers ertm).unacked] at h
  have hnonempty : ¬ ertm.unacked.isEmpty := by rwa [List.isEmpty_iff]
  rw [armTimers, if_neg hnonempty]
  by_cases hnone : ertm.retransmissionTimer.isNone && ertm.monitorTimer.isNone
  · rw [if_pos hnone]
    rw [Bool.and_eq_true, Option.isNone_iff_eq_none, Option.isNone_iff_eq_none] at hnone
    rw [nextTimeout, hnone.2]
    rfl
  · rw [if_neg hnone, nextTimeout]
    cases hmonitor : ertm.monitorTimer with
    | some remaining => rfl
    | none =>
      cases hretransmission : ertm.retransmissionTimer with
      | some remaining => rfl
      | none =>
        rw [hmonitor, hretransmission] at hnone
        exact absurd rfl hnone

theorem Timed.pump (h : ertm.Timed) (out : ErtmOutput) : (ertm.pump out).1.Timed := by
  obtain ⟨-, hwaiting, hmonitor⟩ := flags_pump ertm out
  refine ⟨by rw [hwaiting, hmonitor]; exact h.monitor, ?_⟩
  unfold Ertm.pump
  split
  · exact h.armed
  · exact armed_armTimers _

theorem Timed.send (h : ertm.Timed) {sdu : Bytes} {result : Ertm × ErtmOutput}
    (hsend : ertm.send sdu = .ok result) : result.1.Timed := by
  unfold Ertm.send at hsend
  split at hsend
  · cases hsend
  · cases hsend
    have hqueue : Timed { ertm with queued := ertm.queued ++ segments ertm.params.sendMps sdu } :=
      ⟨h.monitor, h.armed⟩
    exact hqueue.pump {}

/-- Waiting for the answer to a poll, and the timer of it, are as they were. -/
def SameWait (before after : Ertm) : Prop :=
  after.waitingForFinal = before.waitingForFinal ∧ after.monitorTimer = before.monitorTimer

theorem sameWait_retransmit (ertm : Ertm) (frame : Unacked) (out : ErtmOutput) :
    SameWait ertm (ertm.retransmit frame out).1 := by
  unfold retransmit
  dsimp only
  split
  · exact ⟨rfl, rfl⟩
  · exact ⟨rfl, rfl⟩

theorem sameWait_retransmitEach (frames : List Unacked) (ertm : Ertm) (out : ErtmOutput) :
    SameWait ertm (retransmitEach frames ertm out).1 := by
  induction frames generalizing ertm out with
  | nil => exact ⟨rfl, rfl⟩
  | cons frame rest ih =>
    obtain ⟨hwaiting, hmonitor⟩ := sameWait_retransmit ertm frame out
    obtain ⟨hwaiting', hmonitor'⟩ :=
      ih (ertm.retransmit frame out).1 (ertm.retransmit frame out).2
    exact ⟨hwaiting'.trans hwaiting, hmonitor'.trans hmonitor⟩

theorem sameWait_retransmitOne (ertm : Ertm) (txSeq : ℕ) (out : ErtmOutput) :
    SameWait ertm (ertm.retransmitOne txSeq out).1 := by
  unfold retransmitOne
  split
  · exact sameWait_retransmit ..
  · exact ⟨rfl, rfl⟩

theorem sameWait_onSupervisory (ertm : Ertm) (function : Supervisory) (reqSeq : ℕ) (poll : Bool)
    (out : ErtmOutput) : SameWait ertm (ertm.onSupervisory function reqSeq poll out).1 := by
  have hanswer {answered : Ertm × ErtmOutput} (h : SameWait ertm answered.1) :
      SameWait ertm (if poll then
        (answered.1, answered.2.pushFrame (answered.1.supervisory .receiverReady false true))
      else answered).1 := by
    split
    · exact h
    · exact h
  cases function with
  | receiverNotReady | receiverReady => exact hanswer ⟨rfl, rfl⟩
  | reject =>
    exact hanswer (sameWait_retransmitEach ertm.unacked { ertm with remoteBusy := false } out)
  | selectiveReject =>
    exact hanswer (sameWait_retransmitOne { ertm with remoteBusy := false } reqSeq out)
  | other raw => exact hanswer ⟨rfl, rfl⟩

theorem sameWait_reassemble (ertm : Ertm) (sar : Segmentation) (sduLen : Option UInt16)
    (payload : Bytes) (out : ErtmOutput) :
    SameWait ertm (ertm.reassemble sar sduLen payload out).1 := by
  unfold reassemble
  cases sar with
  | unsegmented => exact ⟨rfl, rfl⟩
  | start | continuation =>
    dsimp only
    split
    · exact ⟨rfl, rfl⟩
    · exact ⟨rfl, rfl⟩
  | end_ =>
    dsimp only
    split
    · split
      · exact ⟨rfl, rfl⟩
      · exact ⟨rfl, rfl⟩
    · exact ⟨rfl, rfl⟩

theorem sameWait_dispatch (ertm : Ertm) (frame : Frame) (out : ErtmOutput) :
    SameWait ertm (ertm.dispatch frame out).1 := by
  cases frame with
  | supervisory function reqSeq poll finalBit => exact sameWait_onSupervisory ..
  | information txSeq reqSeq finalBit sar sduLen payload =>
    change SameWait ertm (ertm.onInformation txSeq sar sduLen payload out).1
    unfold onInformation
    split
    · split
      · exact ⟨rfl, rfl⟩
      · exact ⟨rfl, rfl⟩
    · exact sameWait_reassemble
        { ertm with rejected := false, expectedTxSeq := nextSeq ertm.expectedTxSeq } ..

theorem monitor_takeFinal (h : ertm.waitingForFinal = ertm.monitorTimer.isSome) (frame : Frame)
    (out : ErtmOutput) : (ertm.takeFinal frame out).1.waitingForFinal =
      (ertm.takeFinal frame out).1.monitorTimer.isSome := by
  unfold takeFinal
  split
  · dsimp only
    split
    · rfl
    · obtain ⟨hwaiting, hmonitor⟩ := sameWait_retransmitEach ertm.unacked
        { ertm with waitingForFinal := false, monitorTimer := none, polls := 0 } out
      exact hwaiting.trans (congrArg Option.isSome hmonitor).symm
  · exact h

theorem Timed.receiveFrame (h : ertm.Timed) (frame : Frame) :
    (ertm.receiveFrame frame).1.Timed := by
  have hfinal := @monitor_takeFinal (ertm.acknowledge frame.reqSeq) h.monitor frame {}
  obtain ⟨hwaiting, hmonitor⟩ :=
    sameWait_dispatch ((ertm.acknowledge frame.reqSeq).takeFinal frame {}).1 frame
      ((ertm.acknowledge frame.reqSeq).takeFinal frame {}).2
  generalize hhandled : ((ertm.acknowledge frame.reqSeq).takeFinal frame {}).1.dispatch frame
    ((ertm.acknowledge frame.reqSeq).takeFinal frame {}).2 = handled at hwaiting hmonitor
  have hresult : ertm.receiveFrame frame =
      ((handled.1.pump handled.2).1.armTimers, (handled.1.pump handled.2).2) := by
    rw [← hhandled]
    rfl
  obtain ⟨-, hwaiting', hmonitor'⟩ := flags_pump handled.1 handled.2
  obtain ⟨-, hwaiting'', hmonitor''⟩ := flags_armTimers (handled.1.pump handled.2).1
  rw [hresult]
  refine ⟨?_, armed_armTimers _⟩
  rw [hwaiting'', hwaiting', hwaiting, hmonitor'', hmonitor', hmonitor]
  exact hfinal

theorem Timed.tick (h : ertm.Timed) (elapsed : ℕ) (hfailed : (ertm.tick elapsed).2.failed = false) :
    (ertm.tick elapsed).1.Timed := by
  have htimed : (ertm.runTimers elapsed).2.failed = false →
      (ertm.runTimers elapsed).1.Timed := by
    unfold runTimers
    split
    · rename_i remaining _ hmonitor
      split
      · dsimp only
        split
        · exact fun hfailure => Bool.noConfusion hfailure
        · exact fun _ => ⟨rfl, fun _ => rfl⟩
      · exact fun _ => ⟨by rw [h.monitor, hmonitor]; rfl, fun _ => rfl⟩
    · rename_i remaining hmonitor hretransmission
      split
      · exact fun _ => ⟨rfl, fun _ => rfl⟩
      · refine fun _ => ⟨h.monitor, fun _ => ?_⟩
        rw [nextTimeout]
        dsimp only
        rw [hmonitor]
        rfl
    · exact fun _ => h
  unfold Ertm.tick at hfailed ⊢
  dsimp only at hfailed ⊢
  generalize ertm.runTimers elapsed = timed at htimed hfailed ⊢
  by_cases hstop : timed.2.failed || timed.2.isEmpty
  · rw [if_pos hstop] at hfailed ⊢
    exact htimed hfailed
  · rw [if_neg hstop]
    rw [Bool.or_eq_true, not_or, Bool.not_eq_true] at hstop
    exact (htimed hstop.1).pump timed.2

end Ertm

/-! ## Runs -/

theorem endsBelow_of_numbered {base : ℕ} {seqs : List ℕ} (h : Numbered base seqs) :
    EndsBelow seqs ((base + seqs.length) % seqModulo) := by
  have hnext (n : ℕ) : nextSeq (n % seqModulo) = (n + 1) % seqModulo := Nat.mod_add_mod ..
  induction seqs generalizing base with
  | nil => exact trivial
  | cons seq rest ih =>
    obtain ⟨hseq, hrest⟩ := h
    have htail := ih hrest
    rw [length_cons]
    rw [Nat.add_assoc, Nat.add_comm 1] at htail
    cases rest with
    | nil =>
      change nextSeq seq = _
      rw [hseq, hnext]
      rfl
    | cons seq' rest =>
      refine ⟨?_, htail⟩
      rw [hseq, hnext]
      exact hrest.1.symm

namespace Sender

/-- What holds of a sender between two calls. -/
structure Sound (params : ErtmParameters) (s : Sender) : Prop where
  pace : Pace params s.base s.copies (s.engine, {})
  taken : s.base + s.engine.unacked.length = s.taken
  timed : s.failed = false → s.engine.Timed
  paused : s.fresh ≠ 0 → s.engine.remoteBusy = false ∧ s.engine.waitingForFinal = false
  sized : 3 ≤ params.sendMps.toNat → ∀ bytes ∈ s.out.frames, ∀ seq segment,
    dataFrame? params bytes = some (seq, segment) → segment.size ≤ params.sendMps.toNat

variable {params : ErtmParameters} {s : Sender}

theorem Sound.disciplined (h : Sound params s) : Disciplined s where
  consecutive := by
    have hends := endsBelow_of_numbered h.pace.numbered
    rw [length_map] at hends
    exact h.pace.nextTxSeq ▸ hends
  window := by rw [h.pace.params_eq]; exact h.pace.window
  budget := by
    rw [h.pace.params_eq]
    intro hone hmax hwindow n hlow hhigh
    have htaken := h.taken
    obtain ⟨i, rfl⟩ := Nat.exists_eq_add_of_le hlow
    have hi : i < s.engine.unacked.length := by omega
    obtain ⟨hcount, hle⟩ := h.pace.counted ⟨hone, hmax, hwindow⟩ i _ (getElem?_eq_getElem hi)
    rw [hcount] at hle
    exact (Nat.le_add_right _ _).trans hle
  paused := h.paused
  sized := by rw [h.pace.params_eq]; exact h.sized
  armed := fun hfailed hunacked => (h.timed hfailed).armed hunacked

theorem sound_new (params : ErtmParameters) : Sound params { engine := .new params } where
  pace :=
    { params_eq := rfl
      expected_lt := (by decide : 0 < seqModulo)
      numbered := trivial
      nextTxSeq := rfl
      window := Nat.zero_le _
      wellFormed := fun _ h => absurd h not_mem_nil
      small := fun _ _ h => absurd h not_mem_nil
      sized := fun _ _ h => absurd h not_mem_nil
      unsent := fun _ _ => rfl
      counted := fun _ _ _ h => absurd (mem_of_getElem? h) not_mem_nil
      within := fun _ _ h => absurd h not_mem_nil }
  taken := rfl
  timed := fun _ => ⟨rfl, fun h => absurd rfl h⟩
  paused := fun h => absurd rfl h
  sized := fun _ _ h => absurd h not_mem_nil

/-- Noting what a call with some outcome produced. -/
theorem Sound.record (h : Sound params s) {queues : ℕ} {result : Ertm × ErtmOutput}
    (houtcome : Outcome params s.base s.copies s.engine queues result)
    (htimed : s.engine.Timed → result.2.failed = false → result.1.Timed) :
    Sound params (s.record queues result) := by
  obtain ⟨base', n, hpace, hunacked, hqueued, hpaused⟩ := houtcome
  have hfresh : (s.record queues result).fresh = n := by
    change s.engine.queued.length + queues - result.1.queued.length = n
    omega
  have htaken : (s.record queues result).taken = base' + result.1.unacked.length := by
    change s.taken + (s.engine.queued.length + queues - result.1.queued.length) = _
    have hbefore := h.taken
    omega
  have hbase : (s.record queues result).base = base' := by
    change (s.record queues result).taken - result.1.unacked.length = base'
    rw [htaken, Nat.add_sub_cancel]
  have hcopies (m : ℕ) : (s.record queues result).copies m =
      if base' ≤ m ∧ m < base' + result.1.unacked.length then
        s.copies m + (dataSeqs params result.2.frames).count (m % seqModulo)
      else s.copies m := by
    rw [← htaken, ← hbase, ← hpace.params_eq]
    rfl
  refine ⟨?_, ?_, fun hfailed => ?_, ?_, hpace.sized⟩
  · rw [hbase]
    refine
      { params_eq := hpace.params_eq
        expected_lt := hpace.expected_lt
        numbered := hpace.numbered
        nextTxSeq := hpace.nextTxSeq
        window := hpace.window
        wellFormed := hpace.wellFormed
        small := hpace.small
        sized := fun _ _ hmem => absurd hmem not_mem_nil
        unsent := fun m hm => ?_
        counted := fun hlimits i frame hframe => ?_
        within := fun _ _ hmem => absurd hmem not_mem_nil }
    · rw [hcopies, if_neg fun hin => Nat.not_le.mpr hin.2 hm]
      exact hpace.unsent m hm
    · have hi : i < result.1.unacked.length := index_lt hframe
      rw [hcopies, if_pos ⟨Nat.le_add_right _ _, Nat.add_lt_add_left hi _⟩]
      exact hpace.counted hlimits i frame hframe
  · rw [hbase, htaken]
    rfl
  · obtain ⟨hbefore, hnow⟩ := Bool.or_eq_false_iff.mp hfailed
    exact htimed (h.timed hbefore) hnow
  · rw [hfresh]
    exact hpaused

/-- A call that changed nothing and produced nothing. -/
theorem Sound.idle (h : Sound params s) : Sound params { s with fresh := 0, out := {} } :=
  ⟨h.pace, h.taken, h.timed, fun hfresh => absurd rfl hfresh,
    fun _ _ hmem => absurd hmem not_mem_nil⟩

/-- **Every call keeps a sender sound**, whatever a peer puts into a frame. -/
theorem Sound.call (h : Sound params s) (c : Ertm.Call) : Sound params (s.call c) := by
  have hparams : s.engine.params = params := h.pace.params_eq
  cases c with
  | send sdu =>
    rw [Sender.call, Ertm.perform]
    rcases hsend : s.engine.send sdu with e | result
    · exact h.idle
    · refine h.record ?_ fun htimed _ => htimed.send hsend
      rw [hparams]
      exact h.pace.send hsend
  | receive payload =>
    rw [Sender.call, Ertm.perform]
    rcases hreceive : s.engine.receive payload with e | result
    · exact h.idle
    · unfold Ertm.receive at hreceive
      split at hreceive
      · cases hreceive
        exact h.record (h.pace.receiveFrame _) fun htimed _ => htimed.receiveFrame _
      · cases hreceive
        refine h.record ⟨s.base, 0, h.pace.quiet ⟨rfl, rfl, rfl, rfl, id⟩ rfl, rfl, rfl,
          fun hn => absurd rfl hn⟩ fun htimed _ => ⟨htimed.monitor, htimed.armed⟩
      · cases hreceive
  | tick elapsed =>
    exact h.record (h.pace.tick elapsed) fun htimed hfailed => htimed.tick elapsed hfailed

theorem sound_run (params : ErtmParameters) (calls : List Ertm.Call) :
    Sound params (run params calls) := by
  have hfold (s : Sender) (h : Sound params s) : Sound params (calls.foldl call s) := by
    induction calls generalizing s with
    | nil => exact h
    | cons c calls ih => exact ih (s.call c) (h.call c)
  exact hfold _ (sound_new params)

end Sender

/-- **After any calls**, whatever the peer sent: the unacknowledged frames are
numbered up to the next one, are within the window and within their budget of
transmissions, new frames go out under neither flag, frames are within the
agreed size, and a timer runs for frames that are unacknowledged as long as no
call has reported failure. -/
theorem disciplined_run (params : ErtmParameters) (calls : List Ertm.Call) :
    Disciplined (Sender.run params calls) :=
  (Sender.sound_run params calls).disciplined

/-- A channel that may send a frame as often as `maxTransmit` says. -/
def allowing (maxTransmit : UInt8) : ErtmParameters where
  localCid := ⟨0x40⟩
  remoteCid := ⟨0x41⟩
  fcs := .none
  sendMps := 100
  sendWindow := 4
  maxTransmit
  retransmissionTimeout := 2
  monitorTimeout := 12
  localMtu := 200

/-- A frame is sent, polled for and given up, and then another is queued. -/
def afterFailure : List Ertm.Call := [.send [1], .tick 2, .tick 12, .send [2]]

/-- The last call reports no failure and leaves a frame unacknowledged with no
timer, since the one before it gave the channel up.  A channel that may send a
frame no times at all sends it once; one with a window of 65 puts one number on
two frames at a time; and the length of an SDU takes a frame past an agreed size
of two. -/
theorem untimed_after_failure : (¬ ∀ (params : ErtmParameters) (calls : List Ertm.Call),
      (Sender.run params calls).out.failed = false →
        (Sender.run params calls).engine.unacked ≠ [] →
          (Sender.run params calls).engine.nextTimeout.isSome) ∧
    (¬ ∀ (params : ErtmParameters) (calls : List Ertm.Call) (n : ℕ),
      (Sender.run params calls).base ≤ n → n < (Sender.run params calls).taken →
        (Sender.run params calls).copies n ≤ params.maxTransmit.toNat) ∧
    (¬ ∀ (params : ErtmParameters) (calls : List Ertm.Call) (n : ℕ),
      1 ≤ params.maxTransmit.toNat → params.maxTransmit.toNat ≤ 254 →
        (Sender.run params calls).base ≤ n → n < (Sender.run params calls).taken →
          (Sender.run params calls).copies n ≤ params.maxTransmit.toNat) ∧
    ¬ ∀ (params : ErtmParameters) (calls : List Ertm.Call),
      ∀ bytes ∈ (Sender.run params calls).out.frames, ∀ seq segment,
        dataFrame? params bytes = some (seq, segment) →
          segment.size ≤ params.sendMps.toNat := by
  refine ⟨fun h => ?_, fun h => ?_, fun h => ?_, fun h => ?_⟩
  · have hsome := h (allowing 1) afterFailure (by decide) (by decide)
    exact absurd hsome (by decide)
  · have hle := h (allowing 0) [.send [1]] 0 (by decide) (by decide)
    exact absurd hle (by decide)
  · have hle := h { allowing 1 with sendWindow := 65 } (.replicate 65 (.send [1])) 0 (by decide)
      (by decide) (by decide +kernel) (by decide +kernel)
    exact absurd hle (by decide +kernel)
  · have hle := h { allowing 1 with sendMps := 2 } [.send [1, 2, 3]] [0, 64, 3, 0, 1]
      (by decide +kernel) _ _ rfl
    exact absurd hle (by decide)

end Castaway.L2cap
