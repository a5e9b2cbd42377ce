import Castaway.Cast.Receiver

/-!
# The receiver's window

The invariant of every reachable receiver: the order of the window's three
edges, which frames are pending, and which of those are complete.

`WindowInv` is kept by every call.  A packet can complete the frame after the
checkpoint, which breaks the last clause until the checkpoint has advanced, so
the other clauses are `Edges`, and `advanceCheckpoint` turns `Edges` into
`WindowInv` (`Edges.advanceCheckpoint`).

## Strategy

The loops over frame ids are solved first: what they leave at an id is one `if`.
Each call then moves one edge, and a lemma says what that asks of the frames it
passes: `extendTo` for a newer frame, `collectPacket` for a packet, `deliver`
for a frame that is handed out.  `window_run` is the invariant read off after
every run.
-/

namespace Castaway.Cast.CastRtpReceiver

variable {receiver : CastRtpReceiver} {id target : ℤ} {collector old : FrameCollector}

/-! ## The loops over frame ids -/

/-- The frames that a newer one makes expected are pending, and empty. -/
theorem getElem?_expectFrames (pending : Std.TreeMap ℤ FrameCollector) (next : ℤ) (count : ℕ)
    (id : ℤ) : (expectFrames pending next count)[id]? =
      if next ≤ id ∧ id < next + count then some (.new id) else pending[id]? := by
  induction count generalizing pending next with
  | zero =>
    rw [expectFrames, if_neg (by omega)]
  | succ count ih =>
    rw [expectFrames, ih, FrameId.next]
    simp only [Std.TreeMap.getElem?_insert, Std.LawfulEqCmp.compare_eq_iff_eq]
    by_cases hlater : next + 1 ≤ id ∧ id < next + 1 + count
    · rw [if_pos hlater, if_pos (by omega)]
    · rw [if_neg hlater]
      by_cases heq : next = id
      · rw [if_pos heq, if_pos (by omega), heq]
      · rw [if_neg heq, if_neg (by omega)]

/-- The frames in front of the one that is handed out are given up. -/
theorem getElem?_dropFrames (pending : Std.TreeMap ℤ FrameCollector) (dropped : ℤ) (count : ℕ)
    (id : ℤ) : (dropFrames pending dropped count)[id]? =
      if dropped ≤ id ∧ id < dropped + count then none else pending[id]? := by
  induction count generalizing pending dropped with
  | zero =>
    rw [dropFrames, if_neg (by omega)]
  | succ count ih =>
    rw [dropFrames, ih, FrameId.next]
    simp only [Std.TreeMap.getElem?_erase, Std.LawfulEqCmp.compare_eq_iff_eq]
    by_cases hlater : dropped + 1 ≤ id ∧ id < dropped + 1 + count
    · rw [if_pos hlater, if_pos (by omega)]
    · rw [if_neg hlater]
      by_cases heq : dropped = id
      · rw [if_pos heq, if_pos (by omega)]
      · rw [if_neg heq, if_neg (by omega)]

def CompleteAt (pending : Std.TreeMap ℤ FrameCollector) (id : ℤ) : Prop :=
  (pending[id]?).any FrameCollector.isComplete = true

/-- How far the checkpoint runs: over complete frames only, and as far as they
go. -/
theorem runOfComplete_spec (pending : Std.TreeMap ℤ FrameCollector) (checkpoint : ℤ) (count : ℕ) :
    checkpoint ≤ runOfComplete pending checkpoint count ∧
      runOfComplete pending checkpoint count ≤ checkpoint + count ∧
      (∀ id, checkpoint < id → id ≤ runOfComplete pending checkpoint count →
        CompleteAt pending id) ∧
      (runOfComplete pending checkpoint count < checkpoint + count →
        ¬CompleteAt pending (runOfComplete pending checkpoint count + 1)) := by
  induction count generalizing checkpoint with
  | zero =>
    refine ⟨le_rfl, by simp [runOfComplete], ?_, ?_⟩
    · intro id hlow hhigh
      rw [runOfComplete] at hhigh
      omega
    · simp [runOfComplete]
  | succ count ih =>
    rw [runOfComplete]
    split
    · rename_i hcomplete
      obtain ⟨hlow, hhigh, hrun, hstop⟩ := ih (FrameId.next checkpoint)
      simp only [FrameId.next] at hlow hhigh hrun hstop hcomplete ⊢
      refine ⟨by omega, by omega, ?_, fun hlt => hstop (by omega)⟩
      intro id hid hle
      rcases Int.lt_or_eq_of_le (show checkpoint + 1 ≤ id by omega) with hlt | rfl
      · exact hrun id hlt hle
      · exact hcomplete
    · rename_i hincomplete
      refine ⟨le_rfl, by omega, fun id hlow hhigh => by omega, fun _ => hincomplete⟩

/-! ## The invariant -/

/-- The window's edges and its contents, without the frame after the checkpoint.
-/
structure Edges (receiver : CastRtpReceiver) : Prop where
  lastDelivered_le : receiver.lastDelivered ≤ receiver.checkpoint
  checkpoint_le : receiver.checkpoint ≤ receiver.latestExpected
  latestExpected_le : receiver.latestExpected ≤ receiver.lastDelivered + maxUnackedFrames
  mem_pending : ∀ id : ℤ, id ∈ receiver.pending ↔
    receiver.lastDelivered < id ∧ id ≤ receiver.latestExpected
  complete : ∀ (id : ℤ) (collector : FrameCollector), receiver.pending[id]? = some collector →
    id ≤ receiver.checkpoint → collector.isComplete = true
  collectors : ∀ (id : ℤ) (collector : FrameCollector), receiver.pending[id]? = some collector →
    collector.frameId = id ∧ collector.Consistent

/-- The invariant of every reachable receiver. -/
structure WindowInv (receiver : CastRtpReceiver) : Prop extends Edges receiver where
  incomplete : ∀ collector : FrameCollector,
    receiver.pending[receiver.checkpoint + 1]? = some collector → collector.isComplete = false

/-- A new receiver expects nothing and has nothing. -/
theorem windowInv_new (senderSsrc receiverSsrc : UInt32) :
    (new senderSsrc receiverSsrc).WindowInv := by
  have hempty : ∀ id : ℤ, (new senderSsrc receiverSsrc).pending[id]? = none := by
    intro id
    simp [new]
  have hroom : FrameId.leader ≤ FrameId.leader + maxUnackedFrames := by decide
  refine ⟨⟨le_rfl, le_rfl, hroom, ?_, ?_, ?_⟩, ?_⟩
  · intro id
    rw [Std.TreeMap.mem_iff_isSome_getElem?, hempty]
    simp only [new, Option.isSome_none, Bool.false_eq_true, false_iff]
    omega
  · intro id collector hcollector
    rw [hempty] at hcollector
    cases hcollector
  · intro id collector hcollector
    rw [hempty] at hcollector
    cases hcollector
  · intro collector hcollector
    rw [hempty] at hcollector
    cases hcollector

/-- Between the edges every frame is pending. -/
theorem Edges.exists_collector (h : receiver.Edges) (hlow : receiver.lastDelivered < id)
    (hhigh : id ≤ receiver.latestExpected) : ∃ collector, receiver.pending[id]? = some collector :=
  Option.isSome_iff_exists.mp
    (Std.TreeMap.mem_iff_isSome_getElem?.mp ((h.mem_pending id).mpr ⟨hlow, hhigh⟩))

theorem Edges.bounds (h : receiver.Edges) (hcollector : receiver.pending[id]? = some collector) :
    receiver.lastDelivered < id ∧ id ≤ receiver.latestExpected := by
  apply (h.mem_pending id).mp
  rw [Std.TreeMap.mem_iff_isSome_getElem?, hcollector]
  rfl

theorem completeAt_iff {pending : Std.TreeMap ℤ FrameCollector} :
    CompleteAt pending id ↔ ∃ collector, pending[id]? = some collector ∧
      collector.isComplete = true := by
  simp [CompleteAt, Option.any_eq_true]

/-! ## Advancing the checkpoint -/

theorem getElem?_filter_id (pending : Std.TreeMap ℤ FrameCollector) (keep : ℤ → Bool) (id : ℤ) :
    (pending.filter fun frameId _ => keep frameId)[id]? =
      if keep id then pending[id]? else none := by
  rw [Std.TreeMap.getElem?_filter']
  cases pending[id]? with
  | none => simp
  | some collector => by_cases hkeep : keep id = true <;> simp [Option.filter, hkeep]

/-- Nothing is forgotten: every pending frame is still to be delivered. -/
theorem getElem?_advanceCheckpoint {newCheckpoint : ℤ} (id : ℤ)
    (hpending : ∀ id : ℤ, id ∈ receiver.pending → receiver.lastDelivered < id) :
    (receiver.advanceCheckpoint newCheckpoint).pending[id]? = receiver.pending[id]? := by
  unfold advanceCheckpoint
  dsimp only
  rw [getElem?_filter_id]
  cases hid : receiver.pending[id]? with
  | none => simp
  | some collector =>
    have hlow := hpending id (by rw [Std.TreeMap.mem_iff_isSome_getElem?, hid]; rfl)
    rw [if_pos (by simpa using Or.inr hlow)]

/-- **Advancing the checkpoint restores the invariant.** -/
theorem Edges.advanceCheckpoint (h : receiver.Edges) {newCheckpoint : ℤ}
    (hlow : receiver.lastDelivered ≤ newCheckpoint)
    (hhigh : newCheckpoint ≤ receiver.latestExpected)
    (hcomplete : ∀ (id : ℤ) (collector : FrameCollector),
      receiver.pending[id]? = some collector → id ≤ newCheckpoint → collector.isComplete = true) :
    (receiver.advanceCheckpoint newCheckpoint).WindowInv := by
  obtain ⟨hle, hbound, hrun, hstop⟩ := runOfComplete_spec receiver.pending newCheckpoint
    (receiver.latestExpected - newCheckpoint).toNat
  have hsame : ∀ id : ℤ, (receiver.advanceCheckpoint newCheckpoint).pending[id]? =
      receiver.pending[id]? := fun id =>
    getElem?_advanceCheckpoint id fun id hid => ((h.mem_pending id).mp hid).1
  have hcheckpoint : (receiver.advanceCheckpoint newCheckpoint).checkpoint =
    runOfComplete receiver.pending newCheckpoint
      (receiver.latestExpected - newCheckpoint).toNat := rfl
  rw [← hcheckpoint] at hle hbound hrun hstop
  refine ⟨⟨?_, ?_, h.latestExpected_le, ?_, ?_, ?_⟩, ?_⟩
  · exact hlow.trans hle
  · change (receiver.advanceCheckpoint newCheckpoint).checkpoint ≤ receiver.latestExpected
    omega
  · intro id
    rw [Std.TreeMap.mem_iff_isSome_getElem?, hsame, ← Std.TreeMap.mem_iff_isSome_getElem?]
    exact h.mem_pending id
  · intro id collector hcollector hid
    rw [hsame] at hcollector
    rcases le_or_gt id newCheckpoint with hold | hnew
    · exact hcomplete id collector hcollector hold
    · obtain ⟨other, hother, hdone⟩ := completeAt_iff.mp (hrun id hnew hid)
      rw [hcollector] at hother
      cases hother
      exact hdone
  · intro id collector hcollector
    rw [hsame] at hcollector
    exact h.collectors id collector hcollector
  · intro collector hcollector
    rw [hsame] at hcollector
    have hinside := h.bounds hcollector
    have hnot := hstop (by omega)
    by_contra hdone
    exact hnot (completeAt_iff.mpr ⟨collector, hcollector, by simpa using hdone⟩)

/-! ## Receiving -/

section

variable (h : receiver.WindowInv)
include h

/-- The invariants do not mention the playout delay, the counters or the flags.
-/
theorem WindowInv.congr {receiver' : CastRtpReceiver}
    (hpending : receiver'.pending = receiver.pending)
    (hlast : receiver'.lastDelivered = receiver.lastDelivered)
    (hcheckpoint : receiver'.checkpoint = receiver.checkpoint)
    (hlatest : receiver'.latestExpected = receiver.latestExpected) : receiver'.WindowInv := by
  obtain ⟨⟨h₁, h₂, h₃, h₄, h₅, h₆⟩, h₇⟩ := h
  refine ⟨⟨?_, ?_, ?_, ?_, ?_, ?_⟩, ?_⟩ <;> simpa only [hpending, hlast, hcheckpoint, hlatest]

/-- A packet of a newer frame moves the last edge out, over empty frames. -/
theorem WindowInv.extendTo {frameId : ℤ} (hnew : receiver.latestExpected < frameId)
    (hroom : frameId ≤ receiver.lastDelivered + maxUnackedFrames) :
    (receiver.extendTo frameId).WindowInv := by
  have hchanged : ∀ id : ℤ, (receiver.extendTo frameId).pending[id]? =
      if receiver.latestExpected < id ∧ id ≤ frameId then some (.new id)
      else receiver.pending[id]? := by
    intro id
    rw [CastRtpReceiver.extendTo, getElem?_expectFrames, FrameId.next]
    by_cases hin : receiver.latestExpected < id ∧ id ≤ frameId
    · rw [if_pos hin, if_pos (by omega)]
    · rw [if_neg hin, if_neg (by omega)]
  refine ⟨⟨h.lastDelivered_le, ?_, hroom, ?_, ?_, ?_⟩, ?_⟩
  · exact h.checkpoint_le.trans hnew.le
  · intro id
    have hold := h.mem_pending id
    have := h.lastDelivered_le.trans h.checkpoint_le
    rw [Std.TreeMap.mem_iff_isSome_getElem?] at hold ⊢
    change _ ↔ receiver.lastDelivered < id ∧ id ≤ frameId
    rw [hchanged]
    split
    · simp only [Option.isSome_some, true_iff]
      omega
    · rw [hold]
      omega
  · intro id collector hcollector hid
    have := h.checkpoint_le
    change id ≤ receiver.checkpoint at hid
    rw [hchanged, if_neg (by omega)] at hcollector
    exact h.complete id collector hcollector hid
  · intro id collector hcollector
    rw [hchanged] at hcollector
    split at hcollector
    · cases hcollector
      exact ⟨rfl, FrameCollector.consistent_new id⟩
    · exact h.collectors id collector hcollector
  · intro collector hcollector
    change (receiver.extendTo frameId).pending[receiver.checkpoint + 1]? = _ at hcollector
    rw [hchanged] at hcollector
    split at hcollector
    · cases hcollector
      rfl
    · exact h.incomplete collector hcollector

/-- A packet put into its collector leaves the edges where they are. -/
theorem WindowInv.insert_edges
    (hold : receiver.pending[id]? = some old) (habove : receiver.checkpoint < id)
    (hframe : collector.frameId = id) (hconsistent : collector.Consistent) :
    ({ receiver with pending := receiver.pending.insert id collector } : CastRtpReceiver).Edges where
  lastDelivered_le := h.lastDelivered_le
  checkpoint_le := h.checkpoint_le
  latestExpected_le := h.latestExpected_le
  mem_pending := by
    intro other
    have hbounds := h.bounds hold
    simp only [Std.TreeMap.mem_insert, h.mem_pending, Std.LawfulEqCmp.compare_eq_iff_eq]
    constructor
    · rintro (rfl | hother)
      · exact hbounds
      · exact hother
    · exact Or.inr
  complete := by
    intro other found hfound hle
    simp only [Std.TreeMap.getElem?_insert, Std.LawfulEqCmp.compare_eq_iff_eq] at hfound
    rw [if_neg (by rintro rfl; exact absurd hle (not_le.mpr habove))] at hfound
    exact h.complete other found hfound hle
  collectors := by
    intro other found hfound
    simp only [Std.TreeMap.getElem?_insert, Std.LawfulEqCmp.compare_eq_iff_eq] at hfound
    split at hfound
    · rename_i heq
      cases hfound
      exact ⟨hframe.trans heq, hconsistent⟩
    · exact h.collectors other found hfound

/-- Replacing a collector keeps the invariant when the frame after the
checkpoint stays incomplete. -/
theorem WindowInv.insert
    (hold : receiver.pending[id]? = some old) (habove : receiver.checkpoint < id)
    (hframe : collector.frameId = id) (hconsistent : collector.Consistent)
    (hincomplete : id = receiver.checkpoint + 1 → collector.isComplete = false) :
    ({ receiver with pending := receiver.pending.insert id collector } :
      CastRtpReceiver).WindowInv where
  toEdges := h.insert_edges hold habove hframe hconsistent
  incomplete := by
    intro found hfound
    simp only [Std.TreeMap.getElem?_insert, Std.LawfulEqCmp.compare_eq_iff_eq] at hfound
    split at hfound
    · rename_i heq
      cases hfound
      exact hincomplete heq
    · exact h.incomplete found hfound

/-- A packet is dropped, or it is collected and the checkpoint follows. -/
theorem WindowInv.collectPacket {packet : CastRtpPacket}
    (hpacket : packet.packetId.get ≤ packet.maxPacketId.get)
    (habove : receiver.checkpoint < packet.frameId)
    (hhigh : packet.frameId ≤ receiver.latestExpected) :
    (receiver.collectPacket packet).1.WindowInv := by
  obtain ⟨collector, hcollector⟩ :=
    h.exists_collector (lt_of_le_of_lt h.lastDelivered_le habove) hhigh
  obtain ⟨hframe, hconsistent⟩ := h.collectors _ _ hcollector
  have hframe' : (collector.collect packet).1.frameId = packet.frameId :=
    (FrameCollector.frameId_collect hframe.symm hpacket).trans hframe
  have hconsistent' := hconsistent.collect hframe.symm hpacket
  -- A packet that fills no hole leaves the collector as it was.
  have hsame : (collector.collect packet).2 ≠ .ok .new →
      ({ receiver with
        pending := receiver.pending.insert packet.frameId (collector.collect packet).1 } :
        CastRtpReceiver).WindowInv := by
    intro hnot
    rcases FrameCollector.collect_cases hframe.symm hpacket with ⟨_, _, _, _, hput⟩ | ⟨hkept, -⟩
    · exact absurd (by rw [hput]) hnot
    · refine h.insert hcollector habove hframe' hconsistent' ?_
      intro hnext
      rw [hkept]
      rw [hnext] at hcollector
      exact h.incomplete collector hcollector
  unfold CastRtpReceiver.collectPacket
  simp only [hcollector]
  split
  · unfold accepted
    dsimp only
    split
    · rename_i hincomplete
      have hkept := h.insert hcollector habove hframe' hconsistent' fun _ => by
        simpa using hincomplete
      exact hkept.congr rfl rfl rfl rfl
    · rename_i hcomplete
      have hedges := h.insert_edges hcollector habove hframe' hconsistent'
      split
      all_goals
        dsimp only
        split
        · -- The frame after the checkpoint is complete: the checkpoint moves over it.
          rename_i hnext
          rw [FrameId.next] at hnext
          refine Edges.advanceCheckpoint ?_ ?_ hhigh ?_
          · exact ⟨hedges.1, hedges.2, hedges.3, hedges.4, hedges.5, hedges.6⟩
          · exact (lt_of_le_of_lt h.lastDelivered_le habove).le
          · intro id found hfound hle
            by_cases heq : id = packet.frameId
            · simp only [heq, Std.TreeMap.getElem?_insert_self, Option.some.injEq] at hfound
              rw [← hfound]
              simpa using hcomplete
            · refine hedges.complete id found hfound ?_
              dsimp only at hnext ⊢
              omega
        · rename_i hnext
          have hkept := h.insert hcollector habove hframe' hconsistent' fun heq =>
            absurd heq hnext
          exact hkept.congr rfl rfl rfl rfl
  · rename_i hresult
    exact hsame (by rw [hresult]; simp)
  · rename_i error hresult
    exact hsame (by rw [hresult]; simp)

theorem WindowInv.receivePacket {packet : CastRtpPacket}
    (hpacket : packet.packetId.get ≤ packet.maxPacketId.get) :
    (receiver.receivePacket packet).1.WindowInv := by
  unfold CastRtpReceiver.receivePacket
  dsimp only
  split
  · exact h
  · rename_i habove
    split
    · split
      · exact h
      · rename_i hnew hroom
        refine (h.extendTo hnew (not_lt.mp hroom)).collectPacket hpacket ?_ le_rfl
        exact not_le.mp habove
    · rename_i hknown
      exact h.collectPacket hpacket (not_le.mp habove) (not_lt.mp hknown)

theorem WindowInv.receive {datagram : Bytes}
    {result : CastRtpReceiver × Received} (hresult : receiver.receive datagram = .ok result) :
    result.1.WindowInv := by
  unfold CastRtpReceiver.receive at hresult
  split at hresult
  · rename_i packet stream hparse
    cases hresult
    have hstream : ({ receiver with stream } : CastRtpReceiver).WindowInv :=
      h.congr rfl rfl rfl rfl
    exact hstream.receivePacket (CastRtpStream.parse_spec hparse).1
  · cases hresult

end

/-! ## Delivering -/

/-- The frame to hand out is complete, and the search took the first such. -/
theorem findTarget_spec {policy : Consume} {candidate : ℤ} {count : ℕ}
    (hfind : receiver.findTarget policy candidate count = some target) :
    candidate ≤ target ∧ target < candidate + count ∧
      ∃ collector, receiver.pending[target]? = some collector ∧ collector.isComplete = true ∧
        (target = receiver.lastDelivered + 1 ∨
          policy = .skipToDecodable ∧
            ∀ header, collector.header = some header → header.dependency ≠ .dependent) := by
  induction count generalizing candidate with
  | zero => cases hfind
  | succ count ih =>
    have hlater : receiver.findTarget policy (FrameId.next candidate) count = some target →
        candidate ≤ target ∧ target < candidate + (count + 1 : ℕ) ∧ _ := fun hrest => by
      obtain ⟨hlow, hhigh, hspec⟩ := ih hrest
      rw [FrameId.next] at hlow hhigh
      exact ⟨by omega, by omega, hspec⟩
    rw [findTarget] at hfind
    split at hfind
    · cases hfind
    · rename_i collector hcollector
      split at hfind
      · rename_i hcomplete
        dsimp only at hfind
        split at hfind
        · rename_i himmediate
          cases hfind
          exact ⟨le_rfl, by omega, collector, hcollector, hcomplete, Or.inl himmediate⟩
        · split at hfind
          · rename_i hskip
            cases hfind
            refine ⟨le_rfl, by omega, collector, hcollector, hcomplete, Or.inr ⟨hskip.1, ?_⟩⟩
            intro header hheader
            have hindependent := hskip.2
            rw [hheader] at hindependent
            simpa using hindependent
          · exact hlater hfind
      · split at hfind
        · cases hfind
        · exact hlater hfind

section

variable (h : receiver.WindowInv)
include h

/-- What is handed out: the frame the collector holds, and how many were in
front of it. -/
theorem WindowInv.deliver_eq (hcollector : receiver.pending[target]? = some collector)
    (hcomplete : collector.isComplete = true) : ∃ frame, collector.takeFrame = some frame ∧
      (receiver.deliver target).1.lastDelivered = target ∧
      (receiver.deliver target).2 =
        some ⟨frame, (target - FrameId.next receiver.lastDelivered).toNat⟩ := by
  obtain ⟨hlow, -⟩ := h.bounds hcollector
  obtain ⟨frame, hframe⟩ := (h.collectors _ _ hcollector).2.takeFrame_eq_some hcomplete
  have htarget : (dropFrames receiver.pending (FrameId.next receiver.lastDelivered)
      (target - FrameId.next receiver.lastDelivered).toNat)[target]? = some collector := by
    rw [getElem?_dropFrames, if_neg (by rw [FrameId.next]; omega), hcollector]
  unfold CastRtpReceiver.deliver
  dsimp only
  rw [htarget, Option.bind_some, hframe]
  dsimp only
  refine ⟨frame, rfl, ?_, rfl⟩
  split <;> rfl

/-- Handing out a frame moves the first edge up to it. -/
theorem WindowInv.deliver (hcollector : receiver.pending[target]? = some collector)
    (hcomplete : collector.isComplete = true) : (receiver.deliver target).1.WindowInv := by
  obtain ⟨hlow, hhigh⟩ := h.bounds hcollector
  obtain ⟨frame, hframe⟩ := (h.collectors _ _ hcollector).2.takeFrame_eq_some hcomplete
  unfold CastRtpReceiver.deliver
  dsimp only
  -- What is left after the frames up to `target` are gone.
  have hkept : ∀ id : ℤ, ((dropFrames receiver.pending (FrameId.next receiver.lastDelivered)
      (target - FrameId.next receiver.lastDelivered).toNat).erase target)[id]? =
      if id ≤ target then none else receiver.pending[id]? := by
    intro id
    simp only [Std.TreeMap.getElem?_erase, Std.LawfulEqCmp.compare_eq_iff_eq,
      getElem?_dropFrames, FrameId.next]
    by_cases heq : target = id
    · rw [if_pos heq, if_pos heq.ge]
    · rw [if_neg heq]
      by_cases hle : id ≤ target
      · rw [if_pos hle]
        split
        · rfl
        · cases hid : receiver.pending[id]? with
          | none => rfl
          | some other =>
            have := (h.bounds hid).1
            omega
      · rw [if_neg hle, if_neg (by omega)]
  have htarget : (dropFrames receiver.pending (FrameId.next receiver.lastDelivered)
      (target - FrameId.next receiver.lastDelivered).toNat)[target]? = some collector := by
    rw [getElem?_dropFrames, if_neg (by rw [FrameId.next]; omega), hcollector]
  rw [htarget, Option.bind_some, hframe]
  dsimp only
  have hroom := h.latestExpected_le
  have hmem : ∀ id : ℤ, id ∈ (dropFrames receiver.pending (FrameId.next receiver.lastDelivered)
      (target - FrameId.next receiver.lastDelivered).toNat).erase target ↔
      target < id ∧ id ≤ receiver.latestExpected := by
    intro id
    have hold := h.mem_pending id
    rw [Std.TreeMap.mem_iff_isSome_getElem?] at hold ⊢
    rw [hkept]
    split
    · simp only [Option.isSome_none, Bool.false_eq_true, false_iff]
      omega
    · rw [hold]
      omega
  have hinner : ∀ (id : ℤ) (other : FrameCollector),
      ((dropFrames receiver.pending (FrameId.next receiver.lastDelivered)
        (target - FrameId.next receiver.lastDelivered).toNat).erase target)[id]? = some other →
      receiver.pending[id]? = some other := by
    intro id other hother
    rw [hkept] at hother
    split at hother
    · cases hother
    · exact hother
  split
  · rename_i hpast
    have hedges : ({ receiver with
        pending := (dropFrames receiver.pending (FrameId.next receiver.lastDelivered)
          (target - FrameId.next receiver.lastDelivered).toNat).erase target
        lastDelivered := target
        checkpoint := target } : CastRtpReceiver).Edges := by
      refine ⟨le_rfl, hhigh, by dsimp only; omega, hmem, ?_, ?_⟩
      · intro id other hother hle
        rw [hkept, if_pos hle] at hother
        cases hother
      · exact fun id other hother => h.collectors id other (hinner id other hother)
    exact (hedges.advanceCheckpoint le_rfl hhigh hedges.complete).congr rfl rfl rfl rfl
  · rename_i hbehind
    refine ⟨⟨not_lt.mp hbehind, h.checkpoint_le, by dsimp only; omega, hmem, ?_, ?_⟩, ?_⟩
    · exact fun id other hother => h.complete id other (hinner id other hother)
    · exact fun id other hother => h.collectors id other (hinner id other hother)
    · exact fun other hother => h.incomplete other (hinner _ other hother)

theorem WindowInv.nextFrame (policy : Consume) :
    (receiver.nextFrame policy).1.WindowInv := by
  unfold CastRtpReceiver.nextFrame
  split
  · exact h
  · rename_i target hfind
    obtain ⟨-, -, collector, hcollector, hcomplete, -⟩ := findTarget_spec hfind
    exact h.deliver hcollector hcomplete

/-- **What `nextFrame` does**: nothing, or it hands out a complete frame past
the last one delivered, the next one unless it may skip. -/
theorem WindowInv.nextFrame_cases (policy : Consume) :
    receiver.nextFrame policy = (receiver, none) ∨
      ∃ (target : ℤ) (collector : FrameCollector) (frame : EncryptedFrame),
        receiver.pending[target]? = some collector ∧ collector.isComplete = true ∧
        collector.takeFrame = some frame ∧ receiver.lastDelivered < target ∧
        (receiver.nextFrame policy).1.lastDelivered = target ∧
        (receiver.nextFrame policy).2 =
          some ⟨frame, (target - FrameId.next receiver.lastDelivered).toNat⟩ ∧
        (target = receiver.lastDelivered + 1 ∨
          policy = .skipToDecodable ∧
            ∀ header, collector.header = some header → header.dependency ≠ .dependent) := by
  unfold CastRtpReceiver.nextFrame
  split
  · exact Or.inl rfl
  · rename_i target hfind
    obtain ⟨-, -, collector, hcollector, hcomplete, hreason⟩ := findTarget_spec hfind
    obtain ⟨frame, hframe, hlast, hdelivered⟩ := h.deliver_eq hcollector hcomplete
    exact Or.inr ⟨target, collector, frame, hcollector, hcomplete, hframe,
      (h.bounds hcollector).1, hlast, hdelivered, hreason⟩

end

/-! ## Every run -/

inductive Call where
  | receive (datagram : Bytes)
  | nextFrame (policy : Consume)
  | requestKeyFrame
  | feedback (ntpTimestamp : Option UInt64)

def call (receiver : CastRtpReceiver) : Call → CastRtpReceiver
  | .receive datagram =>
    match receiver.receive datagram with
    | .ok result => result.1
    | .error _ => receiver
  | .nextFrame policy => (receiver.nextFrame policy).1
  | .requestKeyFrame => receiver.requestKeyFrame
  | .feedback ntpTimestamp => (receiver.feedback ntpTimestamp).1

def run (receiver : CastRtpReceiver) (calls : List Call) : CastRtpReceiver := calls.foldl call receiver

theorem WindowInv.call (h : receiver.WindowInv) (call : Call) : (receiver.call call).WindowInv := by
  cases call with
  | receive datagram =>
    change (match receiver.receive datagram with
      | .ok result => result.1
      | .error _ => receiver).WindowInv
    split
    · rename_i result hresult
      exact h.receive hresult
    · exact h
  | nextFrame policy => exact h.nextFrame policy
  | requestKeyFrame =>
    unfold CastRtpReceiver.call requestKeyFrame
    dsimp only
    split
    · exact h.congr rfl rfl rfl rfl
    · exact h
  | feedback ntpTimestamp => exact h.congr rfl rfl rfl rfl

/-- The invariant holds after any calls. -/
theorem WindowInv.run (h : receiver.WindowInv) (calls : List Call) :
    (receiver.run calls).WindowInv := by
  induction calls generalizing receiver with
  | nil => exact h
  | cons call calls ih => exact ih (h.call call)

/-- **The window's edges and contents, in every reachable receiver.** -/
theorem window_run (senderSsrc receiverSsrc : UInt32) (calls : List Call) :
    let receiver := (new senderSsrc receiverSsrc).run calls
    receiver.lastDelivered ≤ receiver.checkpoint ∧
      receiver.checkpoint ≤ receiver.latestExpected ∧
      receiver.latestExpected ≤ receiver.lastDelivered + maxUnackedFrames ∧
      (∀ id : ℤ, id ∈ receiver.pending ↔
        receiver.lastDelivered < id ∧ id ≤ receiver.latestExpected) ∧
      (∀ (id : ℤ) (collector : FrameCollector), receiver.pending[id]? = some collector →
        id ≤ receiver.checkpoint → collector.isComplete = true) ∧
      (FrameId.next receiver.checkpoint ≤ receiver.latestExpected →
        ∃ collector : FrameCollector,
          receiver.pending[FrameId.next receiver.checkpoint]? = some collector ∧
          collector.isComplete = false) := by
  have hinv := (windowInv_new senderSsrc receiverSsrc).run calls
  refine ⟨hinv.lastDelivered_le, hinv.checkpoint_le, hinv.latestExpected_le, hinv.mem_pending,
    hinv.complete, ?_⟩
  intro hle
  rw [FrameId.next] at hle ⊢
  have hlast := hinv.lastDelivered_le
  obtain ⟨collector, hcollector⟩ := hinv.exists_collector (by omega) hle
  exact ⟨collector, hcollector, hinv.incomplete collector hcollector⟩

end Castaway.Cast.CastRtpReceiver
