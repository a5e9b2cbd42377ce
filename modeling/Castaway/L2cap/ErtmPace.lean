import Castaway.L2cap.ErtmDelivery
import Mathlib.Data.List.Nodup

/-!
# The sending half of the engine, a step at a time

Up to the moment the queue is looked at, a call does one of three things at a
time, named by `Touch`: it leaves the sending half alone, it puts a supervisory
frame out, or it puts an unacknowledged frame out once more.  `touches_dispatch`
and its sisters say so once for each method.  The queue is then drained by
`pumpQueue`, a frame at a time.

## Strategy

`Pace` is what holds between any two of these moments, with the frames that are
unacknowledged numbered from `base` on without wrapping, and with what a call
has put out decoded the way the peer decodes it.  It is kept by every `Touch`,
by each frame taken off the queue (`Pace.fresh`), and by an acknowledgement of
anything at all, which moves `base` (`Pace.acknowledge`).
-/

namespace Castaway.L2cap

open List

/-! ## What is on the wire -/

def dataFrame? (params : ErtmParameters) (bytes : Bytes) : Option (ℕ × Segment) :=
  match Frame.decode bytes params.remoteCid params.fcs with
  | .ok (.information txSeq _ _ sar sduLen payload) => some (txSeq, ⟨sar, sduLen, payload⟩)
  | _ => none

def dataSeqs (params : ErtmParameters) (frames : List Bytes) : List ℕ :=
  frames.filterMap fun bytes => (dataFrame? params bytes).map Prod.fst

/-- The bytes a segment spends of the agreed size, two of them on an SDU's
length. -/
def Segment.size (segment : Segment) : ℕ :=
  segment.payload.length + if segment.sar = .start then 2 else 0

theorem dataSeqs_append (params : ErtmParameters) (frames more : List Bytes) :
    dataSeqs params (frames ++ more) = dataSeqs params frames ++ dataSeqs params more :=
  filterMap_append

/-! ## Segments -/

theorem laterSegments_size {mps : ℕ} (hmps : 0 < mps) (rest : Bytes) :
    ∀ frame ∈ Ertm.laterSegments mps hmps rest, frame.segment.size ≤ mps := by
  induction rest using Ertm.laterSegments.induct mps hmps with
  | case1 =>
    rw [Ertm.laterSegments]
    exact fun _ h => absurd h not_mem_nil
  | case2 byte rest ih =>
    rw [Ertm.laterSegments]
    refine forall_mem_cons.mpr ⟨?_, ih⟩
    have htake : ((byte :: rest).take mps).length ≤ mps := length_take_le _ _
    rw [Segment.size, Unacked.segment]
    dsimp only
    split
    · rw [if_neg (by decide)]
      exact htake
    · rw [if_neg (by decide)]
      exact htake

/-- Every frame of an SDU is within the agreed size, if that leaves room for the
length. -/
theorem segments_size {sendMps : UInt16} (hmps : 3 ≤ sendMps.toNat) (sdu : Bytes) :
    ∀ frame ∈ Ertm.segments sendMps sdu, frame.segment.size ≤ sendMps.toNat := by
  have hmax : max sendMps.toNat 1 = sendMps.toNat := Nat.max_eq_left (by omega)
  have hfirst : max (sendMps.toNat - 2) 1 = sendMps.toNat - 2 := Nat.max_eq_left (by omega)
  unfold Ertm.segments
  dsimp only
  split
  · rename_i hshort
    rw [forall_mem_singleton, Segment.size, Unacked.segment, if_neg (by intro h; cases h)]
    rwa [hmax] at hshort
  · refine forall_mem_cons.mpr ⟨?_, fun frame hframe => ?_⟩
    · have htake : (sdu.take (max (max sendMps.toNat 1 - 2) 1)).length ≤ sendMps.toNat - 2 := by
        rw [hmax, hfirst]
        exact length_take_le _ _
      rw [Segment.size, Unacked.segment, if_pos rfl]
      dsimp only
      omega
    · exact (laterSegments_size (by omega) _ frame hframe).trans hmax.le

/-! ## What touches the sending half -/

/-- The sending half, the parameters and the range of the acknowledgements are
kept. -/
structure SameHalf (before after : Ertm) : Prop where
  params : after.params = before.params
  unacked : after.unacked = before.unacked
  queued : after.queued = before.queued
  nextTxSeq : after.nextTxSeq = before.nextTxSeq
  expected_lt : before.expectedTxSeq < seqModulo → after.expectedTxSeq < seqModulo

theorem SameHalf.refl (ertm : Ertm) : SameHalf ertm ertm := ⟨rfl, rfl, rfl, rfl, id⟩

theorem SameHalf.trans {a b c : Ertm} (h : SameHalf a b) (h' : SameHalf b c) : SameHalf a c :=
  ⟨h'.params.trans h.params, h'.unacked.trans h.unacked, h'.queued.trans h.queued,
    h'.nextTxSeq.trans h.nextTxSeq, h'.expected_lt ∘ h.expected_lt⟩

/-- One thing that is done before the queue is looked at. -/
inductive Touch : Ertm × ErtmOutput → Ertm × ErtmOutput → Prop
  | quiet {ertm ertm' : Ertm} {out out' : ErtmOutput} (hhalf : SameHalf ertm ertm')
      (hout : out'.frames = out.frames) : Touch (ertm, out) (ertm', out')
  | answer {ertm : Ertm} {out : ErtmOutput} {function : Supervisory} {poll final : Bool}
      (hfunction : ∀ raw, function ≠ .other raw) :
      Touch (ertm, out) (ertm, out.pushFrame (ertm.supervisory function poll final))
  /-- A frame goes out again.  It is one of those that are unacknowledged,
  unless two of these have the same number. -/
  | resend {ertm ertm' : Ertm} {out : ErtmOutput} {frame : Unacked}
      (hmem : frame.segment ∈ ertm.unacked.map Unacked.segment)
      (hseq : frame.txSeq ∈ ertm.unacked.map Unacked.txSeq)
      (hdistinct : (ertm.unacked.map Unacked.txSeq).Nodup → frame ∈ ertm.unacked)
      (hbudget : saturatingSucc 255 frame.transmissions ≤ ertm.params.maxTransmit.toNat)
      (hhalf : SameHalf
        { ertm with
          unacked := Ertm.setTransmissions frame.txSeq
            (saturatingSucc 255 frame.transmissions) ertm.unacked }
        ertm') :
      Touch (ertm, out) (ertm', out.pushFrame (ertm.encodeInformation frame false))

/-- What is done one thing after the other. -/
abbrev Touches : Ertm × ErtmOutput → Ertm × ErtmOutput → Prop := Relation.ReflTransGen Touch

namespace Ertm

variable {ertm : Ertm} {out : ErtmOutput}

theorem touches_quiet {ertm' : Ertm} {out' : ErtmOutput} (hhalf : SameHalf ertm ertm')
    (hout : out'.frames = out.frames) : Touches (ertm, out) (ertm', out') :=
  .single (.quiet hhalf hout)

theorem touches_ready (poll final : Bool) :
    Touches (ertm, out) (ertm, out.pushFrame (ertm.supervisory .receiverReady poll final)) :=
  .single (.answer fun _ h => Supervisory.noConfusion h)

theorem touches_reject :
    Touches (ertm, out) (ertm, out.pushFrame (ertm.supervisory .reject false false)) :=
  .single (.answer fun _ h => Supervisory.noConfusion h)

/-- Frames can be sent again: they are unacknowledged ones, and as they are now
unless numbers are shared. -/
def Resendable (ertm : Ertm) (frames : List Unacked) : Prop :=
  (∀ frame ∈ frames, frame.segment ∈ ertm.unacked.map Unacked.segment ∧
    frame.txSeq ∈ ertm.unacked.map Unacked.txSeq) ∧
  ((ertm.unacked.map Unacked.txSeq).Nodup →
    (frames.map Unacked.txSeq).Nodup ∧ ∀ frame ∈ frames, frame ∈ ertm.unacked)

theorem mem_setTransmissions {txSeq attempts : ℕ} {frames : List Unacked} {frame : Unacked}
    (hmem : frame ∈ frames) (hseq : frame.txSeq ≠ txSeq) :
    frame ∈ setTransmissions txSeq attempts frames := by
  induction frames with
  | nil => exact absurd hmem not_mem_nil
  | cons head frames ih =>
    rw [setTransmissions]
    rcases mem_cons.mp hmem with rfl | hmem
    · rw [if_neg hseq]
      exact mem_cons_self
    · split
      · exact mem_cons_of_mem _ hmem
      · exact mem_cons_of_mem _ (ih hmem)

/-- Sending a frame again, and that the ones after it can still be. -/
theorem touches_retransmit {frame : Unacked} {rest : List Unacked}
    (h : Resendable ertm (frame :: rest)) : Touches (ertm, out) (ertm.retransmit frame out) ∧
      Resendable (ertm.retransmit frame out).1 rest := by
  obtain ⟨hmem, hdistinct⟩ := h
  obtain ⟨⟨hsegment, hseq⟩, hrest⟩ := forall_mem_cons.mp hmem
  unfold retransmit
  dsimp only
  split
  · refine ⟨touches_quiet (.refl _) rfl, hrest, fun hnodup => ?_⟩
    obtain ⟨hseqs, hall⟩ := hdistinct hnodup
    exact ⟨(nodup_cons.mp hseqs).2, fun f hf => hall f (mem_cons_of_mem _ hf)⟩
  · rename_i hbudget
    refine ⟨.single (.resend hsegment hseq (fun hnodup => ?_) (Nat.not_lt.mp hbudget)
      ⟨rfl, rfl, rfl, rfl, id⟩), ?_, ?_⟩
    · exact (hdistinct hnodup).2 frame mem_cons_self
    · rw [map_segment_setTransmissions, map_txSeq_setTransmissions]
      exact hrest
    · rw [map_txSeq_setTransmissions]
      intro hnodup
      obtain ⟨hseqs, hall⟩ := hdistinct hnodup
      obtain ⟨hother, hseqs⟩ := nodup_cons.mp hseqs
      refine ⟨hseqs, fun f hf => mem_setTransmissions (hall f (mem_cons_of_mem _ hf)) ?_⟩
      intro heq
      exact hother (heq ▸ mem_map_of_mem hf)

theorem touches_retransmitEach {frames : List Unacked} (h : Resendable ertm frames) :
    Touches (ertm, out) (retransmitEach frames ertm out) := by
  induction frames generalizing ertm out with
  | nil => exact .refl
  | cons frame rest ih =>
    obtain ⟨hfirst, hrest⟩ := @touches_retransmit ertm out frame rest h
    exact hfirst.trans (ih hrest)

theorem touches_retransmitAll : Touches (ertm, out) (ertm.retransmitAll out) := by
  refine touches_retransmitEach ⟨fun frame hframe => ?_, fun hnodup => ⟨hnodup, fun _ h => h⟩⟩
  exact ⟨mem_map_of_mem hframe, mem_map_of_mem hframe⟩

theorem touches_retransmitOne (txSeq : ℕ) : Touches (ertm, out) (ertm.retransmitOne txSeq out) := by
  unfold retransmitOne
  split
  · rename_i frame hfind
    have hframe := mem_of_find?_eq_some hfind
    refine (@touches_retransmit _ _ frame [] ⟨?_, fun _ => ⟨?_, ?_⟩⟩).1
    · rw [forall_mem_singleton]
      exact ⟨mem_map_of_mem hframe, mem_map_of_mem hframe⟩
    · exact nodup_cons.mpr ⟨not_mem_nil, nodup_nil⟩
    · rw [forall_mem_singleton]
      exact hframe
  · exact .refl

theorem touches_takeFinal (frame : Frame) : Touches (ertm, out) (ertm.takeFinal frame out) := by
  unfold takeFinal
  split
  · have hanswered : Touches (ertm, out)
        ({ ertm with waitingForFinal := false, monitorTimer := none, polls := 0 }, out) :=
      touches_quiet ⟨rfl, rfl, rfl, rfl, id⟩ rfl
    dsimp only
    split
    · exact hanswered
    · exact hanswered.trans touches_retransmitAll
  · exact .refl

/-- Whatever was done for a frame, a poll is answered behind it. -/
theorem touches_andAnswer (poll : Bool) {answered : Ertm × ErtmOutput}
    (h : Touches (ertm, out) answered) :
    Touches (ertm, out) (if poll then
      (answered.1, answered.2.pushFrame (answered.1.supervisory .receiverReady false true))
    else answered) := by
  split
  · exact h.trans (touches_ready false true)
  · exact h

theorem touches_onSupervisory (function : Supervisory) (reqSeq : ℕ) (poll : Bool) :
    Touches (ertm, out) (ertm.onSupervisory function reqSeq poll out) := by
  have hbusy (busy : Bool) : Touches (ertm, out) ({ ertm with remoteBusy := busy }, out) :=
    touches_quiet ⟨rfl, rfl, rfl, rfl, id⟩ rfl
  cases function with
  | receiverNotReady => exact touches_andAnswer poll (hbusy true)
  | receiverReady => exact touches_andAnswer poll (hbusy false)
  | reject => exact touches_andAnswer poll ((hbusy false).trans touches_retransmitAll)
  | selectiveReject =>
    exact touches_andAnswer poll ((hbusy false).trans (touches_retransmitOne reqSeq))
  | other raw => exact touches_andAnswer poll .refl

theorem sameHalf_reassemble (ertm : Ertm) (out : ErtmOutput) (sar : Segmentation)
    (sduLen : Option UInt16) (payload : Bytes) :
    SameHalf ertm (ertm.reassemble sar sduLen payload out).1 ∧
      (ertm.reassemble sar sduLen payload out).2.frames = out.frames := by
  unfold reassemble
  cases sar with
  | unsegmented => exact ⟨⟨rfl, rfl, rfl, rfl, id⟩, rfl⟩
  | start | continuation =>
    dsimp only
    split
    · exact ⟨⟨rfl, rfl, rfl, rfl, id⟩, rfl⟩
    · exact ⟨⟨rfl, rfl, rfl, rfl, id⟩, rfl⟩
  | end_ =>
    dsimp only
    split
    · split
      · exact ⟨⟨rfl, rfl, rfl, rfl, id⟩, rfl⟩
      · exact ⟨⟨rfl, rfl, rfl, rfl, id⟩, rfl⟩
    · exact ⟨⟨rfl, rfl, rfl, rfl, id⟩, rfl⟩

theorem touches_onInformation (txSeq : ℕ) (sar : Segmentation) (sduLen : Option UInt16)
    (payload : Bytes) : Touches (ertm, out) (ertm.onInformation txSeq sar sduLen payload out) := by
  unfold onInformation
  split
  · split
    · have hrejected : Touches (ertm, out) ({ ertm with rejected := true }, out) :=
        touches_quiet ⟨rfl, rfl, rfl, rfl, id⟩ rfl
      exact hrejected.trans touches_reject
    · exact touches_ready false false
  · have hmoved : SameHalf ertm
        { ertm with rejected := false, expectedTxSeq := nextSeq ertm.expectedTxSeq } :=
      ⟨rfl, rfl, rfl, rfl, fun _ => Nat.mod_lt _ (by decide)⟩
    obtain ⟨hhalf, hout⟩ := sameHalf_reassemble
      { ertm with rejected := false, expectedTxSeq := nextSeq ertm.expectedTxSeq } out sar sduLen
      payload
    exact (touches_quiet (hmoved.trans hhalf) hout).trans (touches_ready false false)

theorem touches_dispatch (frame : Frame) : Touches (ertm, out) (ertm.dispatch frame out) := by
  cases frame with
  | supervisory function reqSeq poll finalBit => exact touches_onSupervisory function reqSeq poll
  | information txSeq reqSeq finalBit sar sduLen payload =>
    exact touches_onInformation txSeq sar sduLen payload

theorem touches_poll : Touches (ertm, out) (ertm.poll out) := by
  have hpolling : Touches (ertm, out)
      ({ ertm with
          polls := saturatingSucc 255 ertm.polls
          waitingForFinal := true
          monitorTimer := some ertm.params.monitorTimeout
          retransmissionTimer := none }, out) :=
    touches_quiet ⟨rfl, rfl, rfl, rfl, id⟩ rfl
  exact hpolling.trans (touches_ready true false)

theorem touches_runTimers (elapsed : ℕ) : Touches (ertm, {}) (ertm.runTimers elapsed) := by
  have hmonitor (timer : Option ℕ) :
      Touches (ertm, {}) ({ ertm with monitorTimer := timer }, {}) :=
    touches_quiet ⟨rfl, rfl, rfl, rfl, id⟩ rfl
  have hretransmission (timer : Option ℕ) :
      Touches (ertm, {}) ({ ertm with retransmissionTimer := timer }, {}) :=
    touches_quiet ⟨rfl, rfl, rfl, rfl, id⟩ rfl
  unfold runTimers
  split
  · split
    · dsimp only
      split
      · exact touches_quiet ⟨rfl, rfl, rfl, rfl, id⟩ rfl
      · exact (hmonitor none).trans touches_poll
    · exact hmonitor _
  · split
    · exact (hretransmission none).trans touches_poll
    · exact hretransmission _
  · exact .refl

end Ertm

/-! ## Numbers and counts -/

/-- The limits under which numbers tell the unacknowledged frames apart and
their counters do not saturate. -/
structure Budgeted (params : ErtmParameters) : Prop where
  one_le : 1 ≤ params.maxTransmit.toNat
  le_max : params.maxTransmit.toNat ≤ 254
  window_le : params.sendWindow.toNat ≤ seqModulo

/-- What holds between any two things a call does, with the unacknowledged
frames numbered from `base` on and sent `copies` times before the call. -/
structure Pace (params : ErtmParameters) (base : ℕ) (copies : ℕ → ℕ)
    (state : Ertm × ErtmOutput) : Prop where
  params_eq : state.1.params = params
  expected_lt : state.1.expectedTxSeq < seqModulo
  numbered : Numbered base (state.1.unacked.map Unacked.txSeq)
  nextTxSeq : state.1.nextTxSeq = (base + state.1.unacked.length) % seqModulo
  window : state.1.unacked.length ≤ params.sendWindow.toNat
  wellFormed : ∀ segment ∈ (state.1.unacked ++ state.1.queued).map Unacked.segment,
    segment.WellFormed
  small : 3 ≤ params.sendMps.toNat →
    ∀ segment ∈ (state.1.unacked ++ state.1.queued).map Unacked.segment,
      segment.size ≤ params.sendMps.toNat
  sized : 3 ≤ params.sendMps.toNat → ∀ bytes ∈ state.2.frames, ∀ seq segment,
    dataFrame? params bytes = some (seq, segment) → segment.size ≤ params.sendMps.toNat
  unsent : ∀ n, base + state.1.unacked.length ≤ n → copies n = 0
  counted : Budgeted params → ∀ i frame, state.1.unacked[i]? = some frame →
    frame.transmissions =
        copies (base + i) + (dataSeqs params state.2.frames).count ((base + i) % seqModulo) ∧
      frame.transmissions ≤ params.maxTransmit.toNat
  within : Budgeted params → ∀ seq ∈ dataSeqs params state.2.frames,
    ∃ i < state.1.unacked.length, seq = (base + i) % seqModulo

section Pace

variable {params : ErtmParameters} {base : ℕ} {copies : ℕ → ℕ} {ertm ertm' : Ertm}
  {out out' : ErtmOutput} {seq i seq' : ℕ} {frame : Unacked}

theorem dataFrame?_supervisory (hparams : ertm.params = params)
    (hexpected : ertm.expectedTxSeq < seqModulo) {function : Supervisory}
    (hfunction : ∀ raw, function ≠ .other raw) (poll final : Bool) :
    dataFrame? params (ertm.supervisory function poll final) = none := by
  have hwell : (Frame.supervisory function ertm.expectedTxSeq poll final).WellFormed :=
    ⟨hexpected, hfunction⟩
  rw [dataFrame?, Ertm.supervisory, hparams, Frame.decode_encode hwell]

theorem dataFrame?_information (hparams : ertm.params = params)
    (hexpected : ertm.expectedTxSeq < seqModulo) {frame : Unacked}
    (hseq : frame.txSeq < seqModulo) (hsegment : frame.segment.WellFormed) (final : Bool) :
    dataFrame? params (ertm.encodeInformation frame final) =
      some (frame.txSeq, frame.segment) := by
  have hwell : (Frame.information frame.txSeq ertm.expectedTxSeq final frame.sar frame.sduLen
      frame.payload).WellFormed := ⟨hseq, hexpected, hsegment⟩
  rw [dataFrame?, Ertm.encodeInformation, hparams, Frame.decode_encode hwell]
  rfl

theorem dataSeqs_singleton (params : ErtmParameters) (bytes : Bytes) :
    dataSeqs params [bytes] = ((dataFrame? params bytes).map Prod.fst).toList := by
  rw [dataSeqs, filterMap_cons]
  cases (dataFrame? params bytes).map Prod.fst with
  | none | some seq => rfl

theorem Pace.txSeq_lt (h : Pace params base copies (ertm, out))
    (hseq : seq ∈ ertm.unacked.map Unacked.txSeq) : seq < seqModulo := by
  obtain ⟨i, hi, rfl⟩ := getElem_of_mem hseq
  rw [h.numbered.getElem hi]
  exact Nat.mod_lt _ (by decide)

theorem index_lt {frames : List Unacked} (hframe : frames[i]? = some frame) : i < frames.length :=
  (List.getElem?_eq_some_iff.mp hframe).1

theorem Pace.txSeq_eq (h : Pace params base copies (ertm, out))
    (hframe : ertm.unacked[i]? = some frame) : frame.txSeq = (base + i) % seqModulo := by
  obtain ⟨hi, rfl⟩ := List.getElem?_eq_some_iff.mp hframe
  have hi' : i < (ertm.unacked.map Unacked.txSeq).length := by rwa [length_map]
  rw [← h.numbered.getElem hi', getElem_map]

/-- Within a window, numbers modulo 64 tell frames apart. -/
theorem mod_inj {base j : ℕ} (hi : i < seqModulo) (hj : j < seqModulo)
    (h : (base + i) % seqModulo = (base + j) % seqModulo) : i = j := by
  rw [seqModulo] at hi hj h
  omega

theorem Pace.nodup (h : Pace params base copies (ertm, out)) (hbudget : Budgeted params) :
    (ertm.unacked.map Unacked.txSeq).Nodup := by
  have hlength : (ertm.unacked.map Unacked.txSeq).length ≤ seqModulo := by
    rw [length_map]
    exact h.window.trans hbudget.window_le
  rw [nodup_iff_getElem?_ne_getElem?]
  intro i j hij hj heq
  rw [getElem?_eq_getElem (lt_trans hij hj), getElem?_eq_getElem hj,
    Option.some.injEq, h.numbered.getElem (lt_trans hij hj), h.numbered.getElem hj] at heq
  exact absurd (mod_inj (by omega) (by omega) heq) hij.ne

theorem Pace.quiet (h : Pace params base copies (ertm, out)) (hhalf : SameHalf ertm ertm')
    (hout : out'.frames = out.frames) : Pace params base copies (ertm', out') where
  params_eq := hhalf.params.trans h.params_eq
  expected_lt := hhalf.expected_lt h.expected_lt
  numbered := by rw [hhalf.unacked]; exact h.numbered
  nextTxSeq := by rw [hhalf.unacked, hhalf.nextTxSeq]; exact h.nextTxSeq
  window := by rw [hhalf.unacked]; exact h.window
  wellFormed := by rw [hhalf.unacked, hhalf.queued]; exact h.wellFormed
  small := by rw [hhalf.unacked, hhalf.queued]; exact h.small
  sized := by rw [hout]; exact h.sized
  unsent := by rw [hhalf.unacked]; exact h.unsent
  counted := by rw [hhalf.unacked, hout]; exact h.counted
  within := by rw [hhalf.unacked, hout]; exact h.within

theorem Pace.answer (h : Pace params base copies (ertm, out)) {function : Supervisory}
    (hfunction : ∀ raw, function ≠ .other raw) (poll final : Bool) :
    Pace params base copies (ertm, out.pushFrame (ertm.supervisory function poll final)) := by
  have hnone := dataFrame?_supervisory h.params_eq h.expected_lt hfunction poll final
  have hseqs : dataSeqs params (out.pushFrame (ertm.supervisory function poll final)).frames =
      dataSeqs params out.frames := by
    rw [ErtmOutput.frames_pushFrame, dataSeqs_append, dataSeqs_singleton, hnone]
    exact append_nil _
  refine { h with sized := ?_, counted := ?_, within := ?_ }
  · intro hmps bytes hbytes seq segment hdata
    rcases mem_append.mp hbytes with hbytes | hbytes
    · exact h.sized hmps bytes hbytes seq segment hdata
    · rw [mem_singleton.mp hbytes, hnone] at hdata
      cases hdata
  · rw [hseqs]
    exact h.counted
  · rw [hseqs]
    exact h.within

/-- The frame with some number is the one whose transmissions are recorded. -/
theorem setTransmissions_eq_set {frames : List Unacked} {attempts : ℕ}
    (hframe : frames[i]? = some frame) (hnodup : (frames.map Unacked.txSeq).Nodup) :
    Ertm.setTransmissions frame.txSeq attempts frames =
      frames.set i { frame with transmissions := attempts } := by
  induction frames generalizing i with
  | nil => cases hframe
  | cons head frames ih =>
    obtain ⟨hother, hrest⟩ := nodup_cons.mp hnodup
    cases i with
    | zero =>
      cases hframe
      rw [Ertm.setTransmissions, if_pos rfl]
      rfl
    | succ i =>
      have hmem : frame ∈ frames := mem_of_getElem? hframe
      have hne : head.txSeq ≠ frame.txSeq := fun heq =>
        hother (heq ▸ mem_map_of_mem hmem)
      rw [Ertm.setTransmissions, if_neg hne, ih hframe hrest]
      rfl

/-- Every data frame on the wire, after one more with the number of the `i`-th
frame. -/
theorem count_pushFrame {bytes : Bytes} {segment : Segment} {i j : ℕ}
    (hdata : dataFrame? params bytes = some ((base + i) % seqModulo, segment)) :
    (dataSeqs params (out.pushFrame bytes).frames).count ((base + j) % seqModulo) =
      (dataSeqs params out.frames).count ((base + j) % seqModulo) +
        if (base + i) % seqModulo = (base + j) % seqModulo then 1 else 0 := by
  rw [ErtmOutput.frames_pushFrame, dataSeqs_append, dataSeqs_singleton, hdata, count_append]
  congr 1
  change [(base + i) % seqModulo].count _ = _
  rw [count_singleton]
  by_cases heq : (base + i) % seqModulo = (base + j) % seqModulo
  · rw [if_pos heq, if_pos (beq_iff_eq.mpr heq)]
  · rw [if_neg heq, if_neg (fun h => heq (beq_iff_eq.mp h))]

theorem mem_dataSeqs_pushFrame {bytes : Bytes} {segment : Segment}
    (hdata : dataFrame? params bytes = some (seq, segment))
    (hmem : seq' ∈ dataSeqs params (out.pushFrame bytes).frames) :
    seq' ∈ dataSeqs params out.frames ∨ seq' = seq := by
  rw [ErtmOutput.frames_pushFrame, dataSeqs_append, dataSeqs_singleton, hdata] at hmem
  rcases mem_append.mp hmem with hmem | hmem
  · exact .inl hmem
  · exact .inr (mem_singleton.mp hmem)

theorem sized_pushFrame {bytes : Bytes} {segment' : Segment}
    (h : Pace params base copies (ertm, out))
    (hdata : dataFrame? params bytes = some (seq', segment'))
    (hmem : segment' ∈ (ertm.unacked ++ ertm.queued).map Unacked.segment) :
    3 ≤ params.sendMps.toNat → ∀ b ∈ (out.pushFrame bytes).frames, ∀ seq segment,
      dataFrame? params b = some (seq, segment) → segment.size ≤ params.sendMps.toNat := by
  intro hmps b hb seq segment hread
  rcases mem_append.mp hb with hb | hb
  · exact h.sized hmps b hb seq segment hread
  · rw [mem_singleton.mp hb, hdata] at hread
    cases hread
    exact h.small hmps _ hmem

theorem Pace.resend (h : Pace params base copies (ertm, out)) {frame : Unacked}
    (hmem : frame.segment ∈ ertm.unacked.map Unacked.segment)
    (hseq : frame.txSeq ∈ ertm.unacked.map Unacked.txSeq)
    (hdistinct : (ertm.unacked.map Unacked.txSeq).Nodup → frame ∈ ertm.unacked)
    (hbudget : saturatingSucc 255 frame.transmissions ≤ ertm.params.maxTransmit.toNat) :
    Pace params base copies
      ({ ertm with
          unacked := Ertm.setTransmissions frame.txSeq
            (saturatingSucc 255 frame.transmissions) ertm.unacked },
        out.pushFrame (ertm.encodeInformation frame false)) := by
  have hsegment : frame.segment ∈ (ertm.unacked ++ ertm.queued).map Unacked.segment := by
    rw [map_append]
    exact mem_append_left _ hmem
  have hdata := dataFrame?_information h.params_eq h.expected_lt (h.txSeq_lt hseq)
    (h.wellFormed _ hsegment) false
  have hseqs : (Ertm.setTransmissions frame.txSeq (saturatingSucc 255 frame.transmissions)
      ertm.unacked).map Unacked.txSeq = ertm.unacked.map Unacked.txSeq :=
    map_txSeq_setTransmissions ..
  have hsegments : (Ertm.setTransmissions frame.txSeq (saturatingSucc 255 frame.transmissions)
      ertm.unacked ++ ertm.queued).map Unacked.segment =
        (ertm.unacked ++ ertm.queued).map Unacked.segment := by
    rw [map_append, map_segment_setTransmissions, map_append]
  have hlength : (Ertm.setTransmissions frame.txSeq (saturatingSucc 255 frame.transmissions)
      ertm.unacked).length = ertm.unacked.length := by
    have hlengths := congrArg List.length hseqs
    rwa [length_map, length_map] at hlengths
  refine
    { params_eq := h.params_eq
      expected_lt := h.expected_lt
      numbered := by rw [hseqs]; exact h.numbered
      nextTxSeq := by rw [hlength]; exact h.nextTxSeq
      window := by rw [hlength]; exact h.window
      wellFormed := by rw [hsegments]; exact h.wellFormed
      small := by rw [hsegments]; exact h.small
      sized := sized_pushFrame h hdata hsegment
      unsent := by rw [hlength]; exact h.unsent
      counted := ?_
      within := ?_ }
  · intro hlimits j other hother
    have hnodup := h.nodup hlimits
    obtain ⟨i, hframe⟩ := List.mem_iff_getElem?.mp (hdistinct hnodup)
    have hi : i < seqModulo :=
      lt_of_lt_of_le (index_lt hframe) (h.window.trans hlimits.window_le)
    have hnumber := h.txSeq_eq hframe
    have hattempts : saturatingSucc 255 frame.transmissions = frame.transmissions + 1 := by
      have hmax := hlimits.le_max
      rw [h.params_eq] at hbudget
      rw [saturatingSucc] at hbudget ⊢
      omega
    rw [hnumber] at hdata
    have hcount := @count_pushFrame params base out _ _ i j hdata
    change (Ertm.setTransmissions _ _ ertm.unacked)[j]? = some other at hother
    rw [setTransmissions_eq_set hframe hnodup, getElem?_set] at hother
    change _ = _ + (dataSeqs params (out.pushFrame _).frames).count _ ∧ _
    rw [hcount]
    by_cases hij : i = j
    · subst hij
      rw [if_pos rfl, if_pos (index_lt hframe)] at hother
      cases hother
      rw [h.params_eq] at hbudget
      rw [if_pos rfl, ← Nat.add_assoc, ← (h.counted hlimits i frame hframe).1]
      exact ⟨hattempts, hbudget⟩
    · rw [if_neg hij] at hother
      have hj : j < seqModulo :=
        lt_of_lt_of_le (index_lt hother) (h.window.trans hlimits.window_le)
      rw [if_neg fun heq => hij (mod_inj hi hj heq), Nat.add_zero]
      exact h.counted hlimits j other hother
  · intro hlimits seq hread
    rw [hlength]
    rcases mem_dataSeqs_pushFrame hdata hread with hread | rfl
    · exact h.within hlimits seq hread
    · obtain ⟨i, hi, heq⟩ := getElem_of_mem hseq
      rw [length_map] at hi
      exact ⟨i, hi, heq.symm.trans (h.numbered.getElem _)⟩

/-- **Whatever is done before the queue is looked at** keeps the pace, and
neither retires a frame nor takes one off the queue. -/
theorem Pace.touches {state state' : Ertm × ErtmOutput} (h : Pace params base copies state)
    (htouches : Touches state state') :
    Pace params base copies state' ∧ state'.1.unacked.length = state.1.unacked.length ∧
      state'.1.queued = state.1.queued := by
  induction htouches with
  | refl => exact ⟨h, rfl, rfl⟩
  | tail _ htouch ih =>
    obtain ⟨hpace, hunacked, hqueued⟩ := ih
    cases htouch with
    | quiet hhalf hout =>
      exact ⟨hpace.quiet hhalf hout, by rw [hhalf.unacked]; exact hunacked,
        hhalf.queued.trans hqueued⟩
    | answer hfunction => exact ⟨hpace.answer hfunction _ _, hunacked, hqueued⟩
    | @resend ertm ertm' out frame hmem hseq hdistinct hbudget hhalf =>
      have hsent := hpace.resend hmem hseq hdistinct hbudget
      refine ⟨hsent.quiet hhalf rfl, ?_, hhalf.queued.trans hqueued⟩
      rw [hhalf.unacked, ← hunacked]
      have hlengths := congrArg List.length (map_txSeq_setTransmissions frame.txSeq
        (saturatingSucc 255 frame.transmissions) ertm.unacked)
      rwa [length_map, length_map] at hlengths

/-! ## Draining the queue -/

theorem Pace.fresh {rest : List Unacked}
    (h : Pace params base copies ({ ertm with queued := frame :: rest }, out))
    (hroom : ertm.unacked.length < ertm.params.sendWindow.toNat) : Pace params base copies
      ({ ertm with
          nextTxSeq := nextSeq ertm.nextTxSeq
          unacked := ertm.unacked ++
            [{ frame with txSeq := ertm.nextTxSeq, transmissions := 1 }]
          queued := rest },
        out.pushFrame (ertm.encodeInformation
          { frame with txSeq := ertm.nextTxSeq, transmissions := 1 } false)) := by
  have hparams : ertm.params = params := h.params_eq
  have hnext : ertm.nextTxSeq = (base + ertm.unacked.length) % seqModulo := h.nextTxSeq
  have hmem : frame.segment ∈
      (ertm.unacked ++ (frame :: rest)).map Unacked.segment := by
    rw [map_append, map_cons]
    exact mem_append_right _ mem_cons_self
  have hdata : dataFrame? params (ertm.encodeInformation
      { frame with txSeq := ertm.nextTxSeq, transmissions := 1 } false) =
        some ((base + ertm.unacked.length) % seqModulo, frame.segment) := by
    have hlt : ertm.nextTxSeq < seqModulo := by
      rw [hnext]
      exact Nat.mod_lt _ (by decide)
    rw [← hnext]
    exact @dataFrame?_information params ertm hparams h.expected_lt
      { frame with txSeq := ertm.nextTxSeq, transmissions := 1 } hlt (h.wellFormed _ hmem) false
  have hsegments : (ertm.unacked ++ [{ frame with txSeq := ertm.nextTxSeq, transmissions := 1 }] ++
      rest).map Unacked.segment = (ertm.unacked ++ (frame :: rest)).map Unacked.segment := by
    rw [append_assoc, singleton_append, map_append, map_append, map_cons,
      map_cons]
    rfl
  have hlength : (ertm.unacked ++
      [{ frame with txSeq := ertm.nextTxSeq, transmissions := 1 }]).length =
        ertm.unacked.length + 1 := by
    rw [length_append, length_singleton]
  rw [hparams] at hroom
  refine
    { params_eq := hparams
      expected_lt := h.expected_lt
      numbered := ?_
      nextTxSeq := ?_
      window := by rw [hlength]; exact hroom
      wellFormed := by rw [hsegments]; exact h.wellFormed
      small := by rw [hsegments]; exact h.small
      sized := sized_pushFrame h hdata hmem
      unsent := ?_
      counted := ?_
      within := ?_ }
  · have hconcat := h.numbered.concat
    rw [length_map] at hconcat
    rw [map_append]
    change Numbered base (_ ++ [ertm.nextTxSeq])
    rw [hnext]
    exact hconcat
  · rw [hlength]
    change nextSeq ertm.nextTxSeq = _
    rw [hnext, nextSeq, Nat.mod_add_mod, Nat.add_assoc]
  · intro n hn
    rw [hlength] at hn
    exact h.unsent n (Nat.le_of_succ_le hn)
  · intro hlimits j other hother
    have hlast : ertm.unacked.length < seqModulo := lt_of_lt_of_le hroom hlimits.window_le
    have hcount := @count_pushFrame params base out _ _ ertm.unacked.length j hdata
    change _ = _ + (dataSeqs params (out.pushFrame _).frames).count _ ∧ _
    rw [hcount]
    change (ertm.unacked ++ [_])[j]? = some other at hother
    by_cases hj : j < ertm.unacked.length
    · rw [getElem?_append_left hj] at hother
      rw [if_neg fun heq => hj.ne' (mod_inj hlast (hj.trans hlast) heq), Nat.add_zero]
      exact h.counted hlimits j other hother
    · obtain ⟨hbound, -⟩ := List.getElem?_eq_some_iff.mp hother
      rw [hlength] at hbound
      have hj' : j = ertm.unacked.length := by omega
      subst hj'
      rw [getElem?_append_right le_rfl, Nat.sub_self] at hother
      cases hother
      -- none of the frames put out so far has the number of this one
      have hzero : (dataSeqs params out.frames).count
          ((base + ertm.unacked.length) % seqModulo) = 0 := by
        rw [count_eq_zero]
        intro hread
        obtain ⟨i, hi, heq⟩ := h.within hlimits _ hread
        exact absurd (mod_inj hlast (lt_trans hi hlast) heq) hi.ne'
      have hnone : copies (base + ertm.unacked.length) = 0 := h.unsent _ le_rfl
      rw [hzero, hnone, if_pos rfl]
      exact ⟨rfl, hlimits.one_le⟩
  · intro hlimits seq hread
    rw [hlength]
    rcases mem_dataSeqs_pushFrame hdata hread with hread | rfl
    · obtain ⟨i, hi, heq⟩ := h.within hlimits seq hread
      exact ⟨i, Nat.lt_succ_of_lt hi, heq⟩
    · exact ⟨ertm.unacked.length, Nat.lt_succ_self _, rfl⟩

/-- Frames moved from the queue to the unacknowledged ones. -/
structure Moved (before after : Ertm) (n : ℕ) : Prop where
  unacked : after.unacked.length = before.unacked.length + n
  queued : after.queued.length + n = before.queued.length

theorem Pace.pumpQueue {queue : List Unacked}
    (h : Pace params base copies ({ ertm with queued := queue }, out)) :
    Pace params base copies (Ertm.pumpQueue queue ertm out) ∧
      ∃ n, Moved { ertm with queued := queue } (Ertm.pumpQueue queue ertm out).1 n := by
  induction queue generalizing ertm out with
  | nil => exact ⟨h, 0, rfl, rfl⟩
  | cons frame rest ih =>
    rw [Ertm.pumpQueue]
    split
    · rename_i hroom
      obtain ⟨hpace, n, hunacked, hqueued⟩ := @ih
        { ertm with
          nextTxSeq := nextSeq ertm.nextTxSeq
          unacked := ertm.unacked ++
            [{ frame with txSeq := ertm.nextTxSeq, transmissions := 1 }] }
        (out.pushFrame (ertm.encodeInformation
          { frame with txSeq := ertm.nextTxSeq, transmissions := 1 } false)) (h.fresh hroom)
      refine ⟨hpace, n + 1, ?_, ?_⟩
      · rw [hunacked]
        change (ertm.unacked ++ [_]).length + n = ertm.unacked.length + (n + 1)
        rw [length_append, length_singleton, Nat.add_assoc, Nat.add_comm 1]
      · change _ + (n + 1) = (frame :: rest).length
        rw [← Nat.add_assoc, hqueued]
        rfl
    · exact ⟨h, 0, rfl, rfl⟩

theorem sameHalf_armTimers (ertm : Ertm) : SameHalf ertm ertm.armTimers := by
  unfold Ertm.armTimers
  split
  · exact ⟨rfl, rfl, rfl, rfl, id⟩
  · split
    · exact ⟨rfl, rfl, rfl, rfl, id⟩
    · exact .refl _

theorem flags_armTimers (ertm : Ertm) : ertm.armTimers.remoteBusy = ertm.remoteBusy ∧
    ertm.armTimers.waitingForFinal = ertm.waitingForFinal ∧
    ertm.armTimers.monitorTimer = ertm.monitorTimer := by
  unfold Ertm.armTimers
  split
  · exact ⟨rfl, rfl, rfl⟩
  · split
    · exact ⟨rfl, rfl, rfl⟩
    · exact ⟨rfl, rfl, rfl⟩

theorem flags_pumpQueue (queue : List Unacked) (ertm : Ertm) (out : ErtmOutput) :
    (Ertm.pumpQueue queue ertm out).1.remoteBusy = ertm.remoteBusy ∧
      (Ertm.pumpQueue queue ertm out).1.waitingForFinal = ertm.waitingForFinal ∧
      (Ertm.pumpQueue queue ertm out).1.monitorTimer = ertm.monitorTimer := by
  induction queue generalizing ertm out with
  | nil => exact ⟨rfl, rfl, rfl⟩
  | cons frame rest ih =>
    rw [Ertm.pumpQueue]
    split
    · exact ih _ _
    · exact ⟨rfl, rfl, rfl⟩

/-- The flags and the monitor timer are as they were. -/
theorem flags_pump (ertm : Ertm) (out : ErtmOutput) :
    (ertm.pump out).1.remoteBusy = ertm.remoteBusy ∧
      (ertm.pump out).1.waitingForFinal = ertm.waitingForFinal ∧
      (ertm.pump out).1.monitorTimer = ertm.monitorTimer := by
  unfold Ertm.pump
  split
  · exact ⟨rfl, rfl, rfl⟩
  · obtain ⟨hbusy, hwaiting, hmonitor⟩ := flags_pumpQueue ertm.queued ertm out
    obtain ⟨hbusy', hwaiting', hmonitor'⟩ :=
      flags_armTimers (Ertm.pumpQueue ertm.queued ertm out).1
    exact ⟨hbusy'.trans hbusy, hwaiting'.trans hwaiting, hmonitor'.trans hmonitor⟩

/-- **Draining the queue** keeps the pace, and takes no frame off it under a
flag. -/
theorem Pace.pump (h : Pace params base copies (ertm, out)) :
    Pace params base copies (ertm.pump out) ∧
      ∃ n, Moved ertm (ertm.pump out).1 n ∧
        (n ≠ 0 → ertm.remoteBusy = false ∧ ertm.waitingForFinal = false) := by
  unfold Ertm.pump
  split
  · exact ⟨h, 0, ⟨rfl, rfl⟩, fun hn => absurd rfl hn⟩
  · rename_i hflags
    rw [Bool.or_eq_true, not_or, Bool.not_eq_true, Bool.not_eq_true] at hflags
    obtain ⟨hpace, n, hunacked, hqueued⟩ :=
      @Pace.pumpQueue params base copies ertm out ertm.queued h
    have harmed := sameHalf_armTimers (Ertm.pumpQueue ertm.queued ertm out).1
    refine ⟨hpace.quiet harmed rfl, n, ⟨?_, ?_⟩, fun _ => hflags⟩
    · dsimp only
      rw [harmed.unacked]
      exact hunacked
    · dsimp only
      rw [harmed.queued]
      exact hqueued

/-! ## Retiring frames -/

/-- What a peer acknowledges, whatever it says, is some of the oldest frames. -/
theorem Pace.acknowledge (h : Pace params base copies (ertm, {})) (reqSeq : ℕ) :
    ∃ base', Pace params base' copies (ertm.acknowledge reqSeq, {}) ∧
      base' + (ertm.acknowledge reqSeq).unacked.length = base + ertm.unacked.length ∧
      (ertm.acknowledge reqSeq).queued = ertm.queued := by
  obtain ⟨k, hk, hdrop⟩ : ∃ k, k ≤ ertm.unacked.length ∧
      (ertm.acknowledge reqSeq).unacked = ertm.unacked.drop k := by
    have hsuffix : (ertm.acknowledge reqSeq).unacked <:+ ertm.unacked := dropWhile_suffix _
    refine ⟨ertm.unacked.length - (ertm.acknowledge reqSeq).unacked.length, Nat.sub_le _ _, ?_⟩
    exact suffix_iff_eq_drop.mp hsuffix
  have hlength : (ertm.acknowledge reqSeq).unacked.length = ertm.unacked.length - k := by
    rw [hdrop, length_drop]
  have hsum : base + k + (ertm.acknowledge reqSeq).unacked.length = base + ertm.unacked.length := by
    omega
  have hsub : ∀ segment ∈
      ((ertm.acknowledge reqSeq).unacked ++ ertm.queued).map Unacked.segment,
        segment ∈ (ertm.unacked ++ ertm.queued).map Unacked.segment := by
    intro segment hsegment
    rw [hdrop, map_append, mem_append] at hsegment
    rw [map_append, mem_append]
    rcases hsegment with hsegment | hsegment
    · rw [map_drop] at hsegment
      exact .inl (mem_of_mem_drop hsegment)
    · exact .inr hsegment
  refine ⟨base + k, ?_, hsum, rfl⟩
  refine
    { params_eq := h.params_eq
      expected_lt := h.expected_lt
      numbered := ?_
      nextTxSeq := by rw [hsum]; exact h.nextTxSeq
      window := (by rw [hlength]; exact Nat.sub_le _ _ : _ ≤ _).trans h.window
      wellFormed := fun segment hsegment => h.wellFormed segment (hsub segment hsegment)
      small := fun hmps segment hsegment => h.small hmps segment (hsub segment hsegment)
      sized := h.sized
      unsent := fun n hn => h.unsent n (hsum ▸ hn)
      counted := ?_
      within := fun _ seq hread => absurd hread not_mem_nil }
  · rw [hdrop, map_drop]
    exact h.numbered.drop (by rwa [length_map])
  · intro hlimits i frame hframe
    rw [hdrop, getElem?_drop] at hframe
    have hcounted := h.counted hlimits (k + i) frame hframe
    rwa [← Nat.add_assoc] at hcounted

end Pace

end Castaway.L2cap
