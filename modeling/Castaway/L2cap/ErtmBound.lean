import Castaway.L2cap.Reassembly
import Castaway.Lib.Runs

/-!
# What a peer can make the engine hold

An SDU under reassembly was announced with a length of at most the MTU, but what
follows is appended to it before its length is looked at, and an SDU in one
frame is delivered whatever its length.  `Bounded` says that the lengths agreed
on are kept to; `bounded_iff_fits` is the exact condition on the frames.

Only an information frame with the number that is expected reaches the buffer.
Everything else `receive` does is `Quiet`.
-/

namespace Castaway.L2cap

open List

variable {localMtu : UInt16} {reassembly : Option Reassembly} {segment : Segment}

/-! ## One segment -/

/-- An SDU under way was announced with a length we agreed to, and is no longer
than that. -/
def Announced (localMtu : UInt16) (reassembly : Option Reassembly) : Prop :=
  ∀ state, reassembly = some state →
    state.expected ≤ localMtu.toNat ∧ state.buffer.length ≤ state.expected

/-- A segment keeps to the lengths agreed on.  The last one is checked by the
engine. -/
def SegmentFits (localMtu : UInt16) (reassembly : Option Reassembly) (segment : Segment) : Prop :=
  match segment.sar with
  | .unsegmented => segment.payload.length ≤ localMtu.toNat
  | .start =>
    (segment.sduLen.getD 0).toNat ≤ localMtu.toNat →
      segment.payload.length ≤ (segment.sduLen.getD 0).toNat
  | .continuation =>
    ∀ state, reassembly = some state →
      state.buffer.length + segment.payload.length ≤ state.expected
  | .end_ => True

theorem announced_none : Announced localMtu none := fun _ h => absurd h (Option.some_ne_none _).symm

theorem announced_some {state : Reassembly} : Announced localMtu (some state) ↔
    state.expected ≤ localMtu.toNat ∧ state.buffer.length ≤ state.expected := by
  constructor
  · exact fun h => h state rfl
  · rintro h _ ⟨⟩
    exact h

/-- What `accept` makes of a segment is within bounds exactly when the segment
is. -/
theorem accept_bounded (h : Announced localMtu reassembly) :
    (Announced localMtu (accept localMtu reassembly segment).1 ∧
        ∀ sdu ∈ (accept localMtu reassembly segment).2, sdu.length ≤ localMtu.toNat) ↔
      SegmentFits localMtu reassembly segment := by
  obtain ⟨sar, sduLen, payload⟩ := segment
  cases sar with
  | unsegmented =>
    simp only [accept, SegmentFits, mem_singleton, forall_eq]
    exact and_iff_right announced_none
  | start =>
    simp only [accept, SegmentFits]
    by_cases hlarge : (sduLen.getD 0).toNat > localMtu.toNat
    · rw [if_pos hlarge]
      refine ⟨fun _ hle => absurd hle (Nat.not_le.mpr hlarge), fun _ => ⟨announced_none, ?_⟩⟩
      exact fun _ hmem => absurd hmem not_mem_nil
    · have hle : (sduLen.getD 0).toNat ≤ localMtu.toNat := Nat.not_lt.mp hlarge
      rw [if_neg hlarge, announced_some]
      refine ⟨fun hfits _ => hfits.1.2, fun hfits => ⟨⟨hle, hfits hle⟩, ?_⟩⟩
      exact fun _ hmem => absurd hmem not_mem_nil
  | continuation =>
    cases reassembly with
    | none =>
      refine ⟨fun _ _ hnone => absurd hnone (Option.some_ne_none _).symm, fun _ => ?_⟩
      exact ⟨announced_none, fun _ hmem => absurd hmem not_mem_nil⟩
    | some state =>
      have hexpected := (announced_some.mp h).1
      simp only [accept, SegmentFits, Option.map_some, announced_some, Option.some.injEq,
        forall_eq', length_append]
      refine ⟨fun hfits => hfits.1.2, fun hfits => ⟨⟨hexpected, hfits⟩, ?_⟩⟩
      exact fun _ hmem => absurd hmem not_mem_nil
  | end_ =>
    refine ⟨fun _ => trivial, fun _ => ?_⟩
    cases reassembly with
    | none => exact ⟨announced_none, fun _ hmem => absurd hmem not_mem_nil⟩
    | some state =>
      -- What is delivered has the length announced, which was agreed to.
      refine ⟨announced_none, fun sdu hsdu => ?_⟩
      simp only [accept] at hsdu
      split at hsdu
      · rename_i hlength
        rw [mem_singleton.mp hsdu, hlength]
        exact (announced_some.mp h).1
      · exact absurd hsdu not_mem_nil

/-! ## What leaves the receiving half alone -/

namespace Ertm

/-- The receiving half and the SDUs delivered are the same. -/
structure Quiet (before after : Ertm × ErtmOutput) : Prop where
  params : after.1.params = before.1.params
  expectedTxSeq : after.1.expectedTxSeq = before.1.expectedTxSeq
  reassembly : after.1.reassembly = before.1.reassembly
  sdus : after.2.sdus = before.2.sdus

variable {ertm : Ertm} {out : ErtmOutput} {before between after : Ertm × ErtmOutput}

theorem Quiet.refl (state : Ertm × ErtmOutput) : Quiet state state := ⟨rfl, rfl, rfl, rfl⟩

theorem Quiet.trans (h : Quiet before between) (h' : Quiet between after) : Quiet before after :=
  ⟨h'.params.trans h.params, h'.expectedTxSeq.trans h.expectedTxSeq,
    h'.reassembly.trans h.reassembly, h'.sdus.trans h.sdus⟩

theorem quiet_armTimers (ertm : Ertm) (out : ErtmOutput) :
    Quiet (ertm, out) (ertm.armTimers, out) := by
  unfold armTimers
  split
  · exact ⟨rfl, rfl, rfl, rfl⟩
  · split
    · exact ⟨rfl, rfl, rfl, rfl⟩
    · exact .refl _

theorem quiet_pumpQueue (queue : List Unacked) (ertm : Ertm) (out : ErtmOutput) :
    Quiet (ertm, out) (pumpQueue queue ertm out) := by
  induction queue generalizing ertm out with
  | nil => exact ⟨rfl, rfl, rfl, rfl⟩
  | cons frame rest ih =>
    unfold pumpQueue
    split
    · refine Quiet.trans ?_ (ih _ _)
      exact ⟨rfl, rfl, rfl, rfl⟩
    · exact ⟨rfl, rfl, rfl, rfl⟩

theorem quiet_pump (ertm : Ertm) (out : ErtmOutput) : Quiet (ertm, out) (ertm.pump out) := by
  unfold pump
  split
  · exact .refl _
  · exact (quiet_pumpQueue ertm.queued ertm out).trans (quiet_armTimers _ _)

theorem quiet_acknowledge (ertm : Ertm) (reqSeq : ℕ) (out : ErtmOutput) :
    Quiet (ertm, out) (ertm.acknowledge reqSeq, out) := ⟨rfl, rfl, rfl, rfl⟩

theorem quiet_retransmit (ertm : Ertm) (frame : Unacked) (out : ErtmOutput) :
    Quiet (ertm, out) (ertm.retransmit frame out) := by
  unfold retransmit
  dsimp only
  split <;> exact ⟨rfl, rfl, rfl, rfl⟩

theorem quiet_retransmitEach (frames : List Unacked) (ertm : Ertm) (out : ErtmOutput) :
    Quiet (ertm, out) (retransmitEach frames ertm out) := by
  induction frames generalizing ertm out with
  | nil => exact .refl _
  | cons frame rest ih => exact (quiet_retransmit ertm frame out).trans (ih _ _)

theorem quiet_retransmitAll (ertm : Ertm) (out : ErtmOutput) :
    Quiet (ertm, out) (ertm.retransmitAll out) := quiet_retransmitEach ..

theorem quiet_retransmitOne (ertm : Ertm) (txSeq : ℕ) (out : ErtmOutput) :
    Quiet (ertm, out) (ertm.retransmitOne txSeq out) := by
  unfold retransmitOne
  split
  · exact quiet_retransmit ..
  · exact .refl _

theorem quiet_takeFinal (ertm : Ertm) (frame : Frame) (out : ErtmOutput) :
    Quiet (ertm, out) (ertm.takeFinal frame out) := by
  unfold takeFinal
  split
  · dsimp only
    split
    · exact ⟨rfl, rfl, rfl, rfl⟩
    · refine Quiet.trans ?_ (quiet_retransmitAll _ _)
      exact ⟨rfl, rfl, rfl, rfl⟩
  · exact .refl _

theorem quiet_onSupervisory (ertm : Ertm) (function : Supervisory) (reqSeq : ℕ) (poll : Bool)
    (out : ErtmOutput) : Quiet (ertm, out) (ertm.onSupervisory function reqSeq poll out) := by
  have hanswered (answered : Ertm × ErtmOutput) (h : Quiet (ertm, out) answered) :
      Quiet (ertm, out) (if poll then
        (answered.1, answered.2.pushFrame (answered.1.supervisory .receiverReady false true))
      else answered) := by
    split
    · exact ⟨h.params, h.expectedTxSeq, h.reassembly, h.sdus⟩
    · exact h
  cases function with
  | receiverNotReady | receiverReady => exact hanswered _ ⟨rfl, rfl, rfl, rfl⟩
  | reject =>
    refine hanswered _ (Quiet.trans ?_ (quiet_retransmitAll _ _))
    exact ⟨rfl, rfl, rfl, rfl⟩
  | selectiveReject =>
    refine hanswered _ (Quiet.trans ?_ (quiet_retransmitOne _ _ _))
    exact ⟨rfl, rfl, rfl, rfl⟩
  | other raw => exact hanswered _ (.refl _)

/-! ## One frame -/

/-- What the receiving half makes of a data frame: only the expected one is
taken. -/
def inbound (ertm : Ertm) (txSeq : ℕ) (segment : Segment) : Option Reassembly × List Bytes :=
  if txSeq = ertm.expectedTxSeq then accept ertm.params.localMtu ertm.reassembly segment
  else (ertm.reassembly, [])

theorem Quiet.inbound (h : Quiet before after) (txSeq : ℕ) (segment : Segment) :
    after.1.inbound txSeq segment = before.1.inbound txSeq segment := by
  unfold Ertm.inbound
  rw [h.expectedTxSeq, h.params, h.reassembly]

theorem reassemble_inbound (ertm : Ertm) (segment : Segment) (out : ErtmOutput) :
    (ertm.reassemble segment.sar segment.sduLen segment.payload out).1.reassembly =
        (accept ertm.params.localMtu ertm.reassembly segment).1 ∧
      (ertm.reassemble segment.sar segment.sduLen segment.payload out).2.sdus =
        out.sdus ++ (accept ertm.params.localMtu ertm.reassembly segment).2 := by
  obtain ⟨sar, sduLen, payload⟩ := segment
  cases sar with
  | unsegmented => exact ⟨rfl, rfl⟩
  | start =>
    simp only [reassemble, accept]
    split <;> exact ⟨rfl, (append_nil _).symm⟩
  | continuation =>
    cases hreassembly : ertm.reassembly with
    | none =>
      simp only [reassemble, hreassembly, accept]
      exact ⟨hreassembly, (append_nil _).symm⟩
    | some state =>
      simp only [reassemble, hreassembly, accept]
      exact ⟨rfl, (append_nil _).symm⟩
  | end_ =>
    cases hreassembly : ertm.reassembly with
    | none =>
      simp only [reassemble, hreassembly, accept]
      exact ⟨hreassembly, (append_nil _).symm⟩
    | some state =>
      simp only [reassemble, hreassembly, accept]
      split
      · exact ⟨rfl, rfl⟩
      · exact ⟨rfl, (append_nil _).symm⟩

theorem onInformation_inbound (ertm : Ertm) (txSeq : ℕ) (segment : Segment) (out : ErtmOutput) :
    (ertm.onInformation txSeq segment.sar segment.sduLen segment.payload out).1.reassembly =
        (ertm.inbound txSeq segment).1 ∧
      (ertm.onInformation txSeq segment.sar segment.sduLen segment.payload out).2.sdus =
        out.sdus ++ (ertm.inbound txSeq segment).2 := by
  unfold onInformation inbound
  by_cases hexpected : txSeq = ertm.expectedTxSeq
  · rw [if_neg (not_not.mpr hexpected), if_pos hexpected]
    exact reassemble_inbound _ segment out
  · rw [if_pos hexpected, if_neg hexpected]
    split <;> exact ⟨rfl, (append_nil _).symm⟩

/-- Only a data frame gets through to the receiving half. -/
theorem receiveFrame_inbound (ertm : Ertm) (frame : Frame) :
    ((ertm.receiveFrame frame).1.reassembly, (ertm.receiveFrame frame).2.sdus) =
      match frame with
      | .information txSeq _ _ sar sduLen payload => ertm.inbound txSeq ⟨sar, sduLen, payload⟩
      | .supervisory .. => (ertm.reassembly, []) := by
  have hfinal : Quiet (ertm, {}) ((ertm.acknowledge frame.reqSeq).takeFinal frame {}) :=
    (quiet_acknowledge ertm frame.reqSeq {}).trans (quiet_takeFinal _ _ _)
  have hpumped (handled : Ertm × ErtmOutput) :
      Quiet handled ((handled.1.pump handled.2).1.armTimers, (handled.1.pump handled.2).2) :=
    (quiet_pump handled.1 handled.2).trans (quiet_armTimers _ _)
  have hlast := hpumped (((ertm.acknowledge frame.reqSeq).takeFinal frame {}).1.dispatch frame
    ((ertm.acknowledge frame.reqSeq).takeFinal frame {}).2)
  change ((_ : Ertm).reassembly, (_ : ErtmOutput).sdus) = _
  unfold receiveFrame
  dsimp only
  rw [hlast.reassembly, hlast.sdus]
  cases frame with
  | supervisory function reqSeq poll finalBit =>
    have hquiet := hfinal.trans (quiet_onSupervisory _ function reqSeq poll _)
    exact Prod.ext hquiet.reassembly hquiet.sdus
  | information txSeq reqSeq finalBit sar sduLen payload =>
    obtain ⟨hreassembly, hsdus⟩ := onInformation_inbound
      ((ertm.acknowledge reqSeq).takeFinal (.information txSeq reqSeq finalBit sar sduLen payload)
        {}).1 txSeq ⟨sar, sduLen, payload⟩
      ((ertm.acknowledge reqSeq).takeFinal (.information txSeq reqSeq finalBit sar sduLen payload)
        {}).2
    have hsame := hfinal.inbound txSeq ⟨sar, sduLen, payload⟩
    refine Prod.ext (hreassembly.trans (congrArg Prod.fst hsame)) (hsdus.trans ?_)
    calc _ = [] ++ (ertm.inbound txSeq ⟨sar, sduLen, payload⟩).2 :=
          congr (congrArg _ hfinal.sdus) (congrArg Prod.snd hsame)
      _ = (ertm.inbound txSeq ⟨sar, sduLen, payload⟩).2 := nil_append _

/-! ## Runs -/

/-- The engine and everything it delivered, after one more payload.  One that
cannot be read leaves both as they are. -/
def takeIn (state : Ertm × List Bytes) (payload : Bytes) : Ertm × List Bytes :=
  match state.1.receive payload with
  | .ok (ertm, out) => (ertm, state.2 ++ out.sdus)
  | .error _ => state

/-- **The lengths agreed on are kept to**: by the SDU under way, and by all that
were delivered. -/
structure Bounded (state : Ertm × List Bytes) : Prop where
  announced : Announced state.1.params.localMtu state.1.reassembly
  delivered : ∀ sdu ∈ state.2, sdu.length ≤ state.1.params.localMtu.toNat

/-- A payload keeps to the lengths agreed on, if it is the data frame that is
expected. -/
def Fits (state : Ertm × List Bytes) (payload : Bytes) : Prop :=
  match Frame.decode payload state.1.params.localCid state.1.params.fcs with
  | .ok (.information txSeq _ _ sar sduLen data) =>
    txSeq = state.1.expectedTxSeq →
      SegmentFits state.1.params.localMtu state.1.reassembly ⟨sar, sduLen, data⟩
  | _ => True

theorem takeIn_bounded {state : Ertm × List Bytes} (h : Bounded state) (payload : Bytes) :
    Bounded (takeIn state payload) ↔ Fits state payload := by
  have hsame (discarded : Ertm) (hparams : discarded.params = state.1.params)
      (hreassembly : discarded.reassembly = state.1.reassembly) (sdus : List Bytes)
      (hsdus : sdus = []) : Bounded (discarded, state.2 ++ sdus) := by
    subst hsdus
    rw [append_nil]
    exact ⟨by rw [hparams, hreassembly]; exact h.announced, by rw [hparams]; exact h.delivered⟩
  unfold takeIn Fits receive
  cases hdecode : Frame.decode payload state.1.params.localCid state.1.params.fcs with
  | error e =>
    refine ⟨fun _ => trivial, fun _ => ?_⟩
    cases e with
    | badFcs cid expected actual => exact hsame state.1.discard rfl rfl [] rfl
    | _ => exact h
  | ok frame =>
    have hinbound := receiveFrame_inbound state.1 frame
    cases frame with
    | supervisory function reqSeq poll finalBit =>
      refine ⟨fun _ => trivial, fun _ => ?_⟩
      obtain ⟨hreassembly, hsdus⟩ := Prod.mk.inj hinbound
      exact hsame _ (params_receiveFrame ..) hreassembly _ hsdus
    | information txSeq reqSeq finalBit sar sduLen data =>
      obtain ⟨hreassembly, hsdus⟩ := Prod.ext_iff.mp hinbound
      dsimp only at hreassembly hsdus ⊢
      by_cases hexpected : txSeq = state.1.expectedTxSeq
      · rw [inbound, if_pos hexpected] at hreassembly hsdus
        have hfits := @accept_bounded _ _ ⟨sar, sduLen, data⟩ h.announced
        rw [← hreassembly, ← hsdus] at hfits
        rw [forall_prop_of_true hexpected, ← hfits]
        have hparams := params_receiveFrame state.1
          (.information txSeq reqSeq finalBit sar sduLen data)
        constructor
        · rintro ⟨hannounced, hdelivered⟩
          rw [hparams] at hannounced hdelivered
          exact ⟨hannounced, fun sdu hsdu => hdelivered sdu (mem_append_right _ hsdu)⟩
        · rintro ⟨hannounced, hdelivered⟩
          refine ⟨by rw [hparams]; exact hannounced, fun sdu hsdu => ?_⟩
          rw [hparams]
          exact (mem_append.mp hsdu).elim (h.delivered sdu) (hdelivered sdu)
      · rw [inbound, if_neg hexpected] at hreassembly hsdus
        refine ⟨fun _ heq => absurd heq hexpected, fun _ => ?_⟩
        exact hsame _ (params_receiveFrame ..) hreassembly _ hsdus

/-- **The engine keeps to the lengths agreed on, after every payload, exactly
when the peer does.** -/
theorem bounded_iff_fits (params : ErtmParameters) (payloads : List Bytes) :
    (∀ k ≤ payloads.length, Bounded ((payloads.take k).foldl takeIn (.new params, []))) ↔
      Along takeIn Fits payloads (.new params, []) :=
  along_iff_always Bounded
    ⟨announced_none, fun _ hmem => absurd hmem not_mem_nil⟩ fun _ payload h =>
      takeIn_bounded h payload

/-- A channel on which SDUs of at most 8 bytes were agreed. -/
def eightBytes : ErtmParameters where
  localCid := ⟨0x0040⟩
  remoteCid := ⟨0x0041⟩
  fcs := .crc16
  sendMps := 48
  sendWindow := 32
  maxTransmit := 3
  retransmissionTimeout := defaultRetransmissionTimeout
  monitorTimeout := defaultMonitorTimeout
  localMtu := 8

/-- An SDU of 4 bytes is announced, and 12 follow. -/
def overlong : List Bytes :=
  [(Frame.information 0 0 false .start (some 4) [1, 2, 3, 4]).encode ⟨0x0040⟩ .crc16,
    (Frame.information 1 0 false .continuation none [5, 6, 7, 8, 9, 10, 11, 12]).encode ⟨0x0040⟩
      .crc16]

theorem bounded_overlong : ¬ ∀ payloads : List Bytes, ∀ k ≤ payloads.length,
      Bounded ((payloads.take k).foldl takeIn (.new eightBytes, [])) := by
  intro h
  have hbounded := (h overlong 2 (Nat.le_refl 2)).announced
  have hheld : (((overlong.take 2).foldl takeIn (.new eightBytes, [])).1.reassembly) =
      some ⟨4, [1, 2, 3, 4, 5, 6, 7, 8, 9, 10, 11, 12]⟩ := by decide +kernel
  exact absurd (hbounded _ hheld).2 (by decide)

end Ertm

end Castaway.L2cap
