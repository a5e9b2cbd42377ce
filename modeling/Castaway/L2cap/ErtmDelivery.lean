import Castaway.L2cap.Reassembly
import Castaway.Lib.SlidingWindow
import Mathlib.Data.List.Forall2

/-!
# Enhanced Retransmission Mode delivers exactly once

Two engines with mirrored parameters, joined by two links that may lose frames:
what one end's `receive` has output is always a prefix of what was passed to
the other end's `send`.

## Strategy

Every data frame is a transmission of some *segment*: the segments of all SDUs
sent, numbered `0, 1, 2, …` without wrapping.  `Ghost` records these unwrapped
numbers for one end, together with one `Tag` for each frame it has in flight,
saying which segment the frame carries and which acknowledgement.  Three facts
tie the ghost to the code.

* `Station` is about one end alone: its engine holds the segments from `base`
  on, its unacknowledged frames are numbered `base, base + 1, …` modulo 64,
  what it has output is what reassembling the peer's first `expected` segments
  gives, and each frame in flight is what its tag says.
* The numbers of each direction form a `Window` of size 32, so six bits tell
  apart all frames in flight.
* `Side` is the three together, as the engine that moves sees them.  Every
  method of the engine keeps `Side`, with the ghost of its own end moved on.

`Inv` is `Side` for both ends; it is kept by every step, and reassembly of a
prefix of the segments is `deliver_take_prefix`.
-/

namespace Castaway.L2cap

open List

/-! ## Ghost numbers -/

/-- What a frame in flight is: the number of the segment it carries, if it
carries one, and the acknowledgement it carries, neither of them wrapped. -/
structure Tag where
  data : Option ℕ
  ack : ℕ

/-- The unwrapped numbers of one end. -/
structure Ghost where
  /-- The segments of everything passed to `send`. -/
  segs : List Segment := []
  /-- The first segment not known to be acknowledged. -/
  base : ℕ := 0
  /-- The first segment never transmitted. -/
  next : ℕ := 0
  /-- The segment of the peer's that is expected. -/
  expected : ℕ := 0
  /-- The frames in flight from this end, oldest first. -/
  tags : List Tag := []

namespace Ghost

def data (ghost : Ghost) : List ℕ := ghost.tags.filterMap Tag.data

def acks (ghost : Ghost) : List ℕ := ghost.tags.map Tag.ack

/-- The ghost after sending a frame that carries `data`. -/
def emit (ghost : Ghost) (data : Option ℕ) : Ghost :=
  { ghost with tags := ghost.tags ++ [⟨data, ghost.expected⟩] }

@[simp] theorem acks_emit (ghost : Ghost) (data : Option ℕ) :
    (ghost.emit data).acks = ghost.acks ++ [ghost.expected] := by simp [emit, acks]

theorem data_emit (ghost : Ghost) (data : Option ℕ) :
    (ghost.emit data).data = ghost.data ++ data.toList := by
  cases data <;> simp [emit, Ghost.data]

end Ghost

/-- A frame whose wire fields are the numbers of `tag` modulo 64. -/
structure Tagged (segs : List Segment) (tag : Tag) (frame : Frame) : Prop where
  wellFormed : frame.WellFormed
  reqSeq : frame.reqSeq = tag.ack % seqModulo
  body : match frame with
    | .supervisory .. => tag.data = none
    | .information txSeq _ _ sar sduLen payload =>
      ∃ s, tag.data = some s ∧ txSeq = s % seqModulo ∧ segs[s]? = some ⟨sar, sduLen, payload⟩

def Carries (params : ErtmParameters) (segs : List Segment) (tag : Tag) (bytes : Bytes) : Prop :=
  ∃ frame : Frame, Tagged segs tag frame ∧ bytes = frame.encode params.remoteCid params.fcs

/-- Frames numbered `base, base + 1, …` modulo 64. -/
def Numbered : ℕ → List ℕ → Prop
  | _, [] => True
  | base, seq :: rest => seq = base % seqModulo ∧ Numbered (base + 1) rest

variable {base i s : ℕ}

theorem Numbered.concat {seqs : List ℕ} (h : Numbered base seqs) :
    Numbered base (seqs ++ [(base + seqs.length) % seqModulo]) := by
  induction seqs generalizing base with
  | nil => exact ⟨rfl, trivial⟩
  | cons seq seqs ih =>
    refine ⟨h.1, ?_⟩
    have hrest := ih h.2
    rwa [Nat.add_assoc, Nat.add_comm 1] at hrest

theorem Numbered.getElem {seqs : List ℕ} (h : Numbered base seqs)
    (hi : i < seqs.length) : seqs[i] = (base + i) % seqModulo := by
  induction seqs generalizing base i with
  | nil => exact absurd hi (Nat.not_lt_zero _)
  | cons seq seqs ih =>
    cases i with
    | zero => exact h.1
    | succ i =>
      rw [getElem_cons_succ, ih h.2 (Nat.lt_of_succ_lt_succ hi), Nat.add_assoc,
        Nat.add_comm 1]

theorem Numbered.drop {seqs : List ℕ} (h : Numbered base seqs)
    (hi : i ≤ seqs.length) : Numbered (base + i) (seqs.drop i) := by
  induction seqs generalizing base i with
  | nil => simp only [drop_nil, Numbered]
  | cons seq seqs ih =>
    cases i with
    | zero => exact h
    | succ i =>
      have hrest := ih h.2 (Nat.le_of_succ_le_succ hi)
      rwa [Nat.add_assoc, Nat.add_comm 1] at hrest

/-- An SDU's length is announced in its start frame and nowhere else. -/
def Segment.WellFormed (segment : Segment) : Prop := segment.sduLen.isSome ↔ segment.sar = .start

/-- What holds of one end alone. -/
structure Station (params : ErtmParameters) (own : Ghost) (peerSegs : List Segment)
    (ertm : Ertm) (link got : List Bytes) : Prop where
  params_eq : ertm.params = params
  window_le : params.sendWindow.toNat ≤ 32
  segs_wellFormed : ∀ segment ∈ own.segs, segment.WellFormed
  carried : List.Forall₂ (Carries params own.segs) own.tags link
  nextTxSeq : ertm.nextTxSeq = own.next % seqModulo
  numbered : Numbered own.base (ertm.unacked.map Unacked.txSeq)
  next_eq : own.base + ertm.unacked.length = own.next
  contents : (ertm.unacked ++ ertm.queued).map Unacked.segment = own.segs.drop own.base
  next_le : own.next ≤ own.segs.length
  expectedTxSeq : ertm.expectedTxSeq = own.expected % seqModulo
  reassembled : deliver params.localMtu none (peerSegs.take own.expected) =
    (ertm.reassembly, got)

/-- What holds of one end and of the numbers in flight in both directions. -/
structure Side (params : ErtmParameters) (own peer : Ghost) (ertm : Ertm)
    (link got : List Bytes) : Prop where
  station : Station params own peer.segs ertm link got
  outbound : Window 32 own.base own.next peer.expected own.data peer.acks
  inbound : Window 32 peer.base peer.next own.expected peer.data own.acks

variable {params : ErtmParameters} {own peer : Ghost} {ertm : Ertm} {link got : List Bytes}
  {out : ErtmOutput} {peerSegs segs more : List Segment} {frame : Unacked} {tag : Tag}
  {tags : List Tag}

/-- The engine's timers, counters and flags are not part of `Station`. -/
theorem Station.congr {ertm' : Ertm}
    (h : Station params own peerSegs ertm link got) (hparams : ertm'.params = ertm.params)
    (hnext : ertm'.nextTxSeq = ertm.nextTxSeq)
    (hnumbers : ertm'.unacked.map Unacked.txSeq = ertm.unacked.map Unacked.txSeq)
    (hcontents : (ertm'.unacked ++ ertm'.queued).map Unacked.segment =
      (ertm.unacked ++ ertm.queued).map Unacked.segment)
    (hexpected : ertm'.expectedTxSeq = ertm.expectedTxSeq)
    (hreassembly : ertm'.reassembly = ertm.reassembly) :
    Station params own peerSegs ertm' link got where
  params_eq := hparams.trans h.params_eq
  window_le := h.window_le
  segs_wellFormed := h.segs_wellFormed
  carried := h.carried
  nextTxSeq := hnext.trans h.nextTxSeq
  numbered := by rw [hnumbers]; exact h.numbered
  next_eq := by
    have hlength := congrArg List.length hnumbers
    simp only [length_map] at hlength
    rw [hlength, h.next_eq]
  contents := hcontents.trans h.contents
  next_le := h.next_le
  expectedTxSeq := hexpected.trans h.expectedTxSeq
  reassembled := by rw [hreassembly]; exact h.reassembled

/-! ## Putting a frame on the link -/

theorem Station.carries_supervisory
    (h : Station params own peerSegs ertm link got) {function : Supervisory}
    (hfunction : ∀ raw, function ≠ .other raw) (poll finalBit : Bool) :
    Carries params own.segs ⟨none, own.expected⟩ (ertm.supervisory function poll finalBit) := by
  refine ⟨.supervisory function ertm.expectedTxSeq poll finalBit, ⟨⟨?_, hfunction⟩, ?_, rfl⟩, ?_⟩
  · rw [h.expectedTxSeq]
    exact Nat.mod_lt _ (by decide)
  · exact h.expectedTxSeq
  · rw [Ertm.supervisory, h.params_eq]

/-- `frame` is a transmission of an unacknowledged segment. -/
def Ghost.Owns (own : Ghost) (frame : Unacked) (s : ℕ) : Prop :=
  own.base ≤ s ∧ s < own.next ∧ frame.txSeq = s % seqModulo ∧ own.segs[s]? = some frame.segment

theorem Station.carries_information (h : Station params own peerSegs ertm link got)
    (htxSeq : frame.txSeq = s % seqModulo) (hsegment : own.segs[s]? = some frame.segment)
    (finalBit : Bool) :
    Carries params own.segs ⟨some s, own.expected⟩ (ertm.encodeInformation frame finalBit) := by
  have hwellFormed : frame.segment.WellFormed :=
    h.segs_wellFormed _ (mem_of_getElem? hsegment)
  refine ⟨.information frame.txSeq ertm.expectedTxSeq finalBit frame.sar frame.sduLen
    frame.payload, ⟨⟨?_, ?_, hwellFormed⟩, h.expectedTxSeq, s, rfl, htxSeq, hsegment⟩, ?_⟩
  · rw [htxSeq]
    exact Nat.mod_lt _ (by decide)
  · rw [h.expectedTxSeq]
    exact Nat.mod_lt _ (by decide)
  · rw [Ertm.encodeInformation, h.params_eq]

/-- Every unacknowledged frame is a transmission of a segment in the window. -/
theorem Station.owns (h : Station params own peerSegs ertm link got)
    (hframe : frame ∈ ertm.unacked) : ∃ s, own.Owns frame s := by
  obtain ⟨i, hi, rfl⟩ := mem_iff_getElem.mp hframe
  have hnext := h.next_eq
  refine ⟨own.base + i, Nat.le_add_right _ _, by omega, ?_, ?_⟩
  · have hnumber := h.numbered.getElem (i := i) (by simpa using hi)
    rwa [getElem_map] at hnumber
  · rw [← getElem?_drop, ← h.contents, map_append,
      getElem?_append_left (by simpa using hi), getElem?_map,
      getElem?_eq_getElem hi]
    rfl

section

variable (h : Side params own peer ertm link got)
include h

theorem Side.emit {data : Option ℕ} {bytes : Bytes}
    (hcarries : Carries params own.segs ⟨data, own.expected⟩ bytes)
    (hdata : ∀ s ∈ data, own.base ≤ s ∧ s < own.next) :
    Side params (own.emit data) peer ertm (link ++ [bytes]) got where
  station :=
    { h.station with
      carried := rel_append h.station.carried (List.Forall₂.cons hcarries .nil) }
  outbound := by
    rw [Ghost.data_emit]
    cases data with
    | none =>
      rw [Option.toList_none, append_nil]
      exact h.outbound
    | some s => exact h.outbound.transmit (hdata s rfl).1 (hdata s rfl).2
  inbound := by
    rw [Ghost.acks_emit]
    exact h.inbound.report

theorem Side.emit_supervisory (function : Supervisory)
    (hfunction : ∀ raw, function ≠ .other raw) (poll finalBit : Bool) :
    Side params (own.emit none) peer ertm (link ++ [ertm.supervisory function poll finalBit])
      got :=
  h.emit (h.station.carries_supervisory hfunction poll finalBit) (by simp)

theorem Side.emit_information (hframe : own.Owns frame s) (finalBit : Bool) :
    Side params (own.emit (some s)) peer ertm (link ++ [ertm.encodeInformation frame finalBit])
      got := by
  obtain ⟨hlow, hhigh, htxSeq, hsegment⟩ := hframe
  refine h.emit (h.station.carries_information htxSeq hsegment finalBit) ?_
  intro t ht
  cases ht
  exact ⟨hlow, hhigh⟩

end

/-! ## Retransmission -/

/-- `Side` after a call that only put frames on the link. -/
def Resent (params : ErtmParameters) (own peer : Ghost) (link got : List Bytes)
    (result : Ertm × ErtmOutput) : Prop :=
  ∃ tags, Side params { own with tags } peer result.1 (link ++ result.2.frames)
    (got ++ result.2.sdus)

@[simp] theorem map_txSeq_setTransmissions (txSeq attempts : ℕ) (frames : List Unacked) :
    (Ertm.setTransmissions txSeq attempts frames).map Unacked.txSeq =
      frames.map Unacked.txSeq := by
  induction frames with
  | nil => rfl
  | cons frame frames ih =>
    rw [Ertm.setTransmissions]
    split <;> simp [ih]

@[simp] theorem map_segment_setTransmissions (txSeq attempts : ℕ) (frames : List Unacked) :
    (Ertm.setTransmissions txSeq attempts frames).map Unacked.segment =
      frames.map Unacked.segment := by
  induction frames with
  | nil => rfl
  | cons frame frames ih =>
    rw [Ertm.setTransmissions]
    split <;> simp [ih, Unacked.segment]

theorem Side.congr {ertm' : Ertm} (h : Side params own peer ertm link got)
    (hstation : Station params own peer.segs ertm' link got) :
    Side params own peer ertm' link got := ⟨hstation, h.outbound, h.inbound⟩

theorem Side.retransmit (h : Side params own peer ertm (link ++ out.frames) (got ++ out.sdus))
    (hframe : own.Owns frame s) :
    Resent params own peer link got (ertm.retransmit frame out) := by
  unfold Ertm.retransmit
  dsimp only
  split
  · exact ⟨own.tags, h⟩
  · have hsent := h.emit_information hframe false
    rw [append_assoc] at hsent
    exact ⟨_, hsent.congr
      (hsent.station.congr rfl rfl (by simp) (by simp) rfl rfl)⟩

theorem Side.retransmitEach {frames : List Unacked}
    (h : Side params own peer ertm (link ++ out.frames) (got ++ out.sdus))
    (hframes : ∀ frame ∈ frames, ∃ s, own.Owns frame s) :
    Resent params own peer link got (Ertm.retransmitEach frames ertm out) := by
  induction frames generalizing ertm out own with
  | nil => exact ⟨own.tags, h⟩
  | cons frame frames ih =>
    obtain ⟨s, hs⟩ := hframes frame (mem_cons_self ..)
    obtain ⟨tags, hsent⟩ := h.retransmit hs
    obtain ⟨tags', hlater⟩ :=
      ih hsent fun later hlater => hframes later (mem_cons_of_mem _ hlater)
    exact ⟨tags', hlater⟩

theorem Side.retransmitAll (h : Side params own peer ertm (link ++ out.frames) (got ++ out.sdus)) :
    Resent params own peer link got (ertm.retransmitAll out) :=
  h.retransmitEach fun _ hframe => h.station.owns hframe

theorem Side.retransmitOne
    (h : Side params own peer ertm (link ++ out.frames) (got ++ out.sdus)) (txSeq : ℕ) :
    Resent params own peer link got (ertm.retransmitOne txSeq out) := by
  unfold Ertm.retransmitOne
  split
  · rename_i frame hfind
    obtain ⟨s, hs⟩ := h.station.owns (mem_of_find?_eq_some hfind)
    exact h.retransmit hs
  · exact ⟨own.tags, h⟩

/-! ## Sending from the queue -/

/-- `Side` with some later ghost of this end, which has sent the same SDUs. -/
def Held (params : ErtmParameters) (own peer : Ghost) (link got : List Bytes)
    (result : Ertm × ErtmOutput) : Prop :=
  ∃ own' : Ghost, own'.segs = own.segs ∧
    Side params own' peer result.1 (link ++ result.2.frames) (got ++ result.2.sdus)

theorem Resent.held {result : Ertm × ErtmOutput} (h : Resent params own peer link got result) :
    Held params own peer link got result := by
  obtain ⟨tags, hside⟩ := h
  exact ⟨{ own with tags }, rfl, hside⟩

/-- Numbering the first queued frame, when the window has room. -/
theorem Side.advance {rest : List Unacked}
    (h : Side params own peer { ertm with queued := frame :: rest } link got)
    (hroom : ertm.unacked.length < ertm.params.sendWindow.toNat) :
    Side params { own with next := own.next + 1 } peer
      { ertm with
        nextTxSeq := nextSeq ertm.nextTxSeq
        unacked := ertm.unacked ++ [{ frame with txSeq := ertm.nextTxSeq, transmissions := 1 }]
        queued := rest } link got where
  station :=
    { params_eq := h.station.params_eq
      window_le := h.station.window_le
      segs_wellFormed := h.station.segs_wellFormed
      carried := h.station.carried
      nextTxSeq := by
        have hnext : ertm.nextTxSeq = own.next % seqModulo := h.station.nextTxSeq
        change nextSeq ertm.nextTxSeq = (own.next + 1) % seqModulo
        rw [nextSeq, hnext, Nat.mod_add_mod]
      numbered := by
        have hnumbered := h.station.numbered.concat
        have hnext : ertm.nextTxSeq = own.next % seqModulo := h.station.nextTxSeq
        have hlength : own.base + ertm.unacked.length = own.next := h.station.next_eq
        simp only [length_map, hlength] at hnumbered
        simpa only [map_append, map_cons, map_nil, hnext] using hnumbered
      next_eq := by
        have hlength : own.base + ertm.unacked.length = own.next := h.station.next_eq
        simp only [length_append, length_cons, length_nil]
        omega
      contents := by
        have hcontents := h.station.contents
        simpa [Unacked.segment] using hcontents
      next_le := by
        have hlength : own.base + ertm.unacked.length = own.next := h.station.next_eq
        have hcontents := congrArg List.length h.station.contents
        simp only [length_map, length_append, length_cons, length_drop]
          at hcontents
        change own.next + 1 ≤ own.segs.length
        omega
      expectedTxSeq := h.station.expectedTxSeq
      reassembled := h.station.reassembled }
  outbound := by
    have hlength : own.base + ertm.unacked.length = own.next := h.station.next_eq
    have hparams : ertm.params = params := h.station.params_eq
    have hwindow := h.station.window_le
    rw [hparams] at hroom
    exact h.outbound.advance (by omega)
  inbound := h.inbound

theorem Side.pumpQueue {queue : List Unacked}
    (h : Side params own peer { ertm with queued := queue } (link ++ out.frames)
      (got ++ out.sdus)) : Held params own peer link got (Ertm.pumpQueue queue ertm out) := by
  induction queue generalizing ertm out own with
  | nil => exact ⟨own, rfl, h⟩
  | cons frame rest ih =>
    rw [Ertm.pumpQueue]
    split
    · rename_i hroom
      have hnumbered := h.advance hroom
      have hlast : { frame with txSeq := ertm.nextTxSeq, transmissions := 1 } ∈
          ertm.unacked ++ [{ frame with txSeq := ertm.nextTxSeq, transmissions := 1 }] := by
        simp
      obtain ⟨s, hs⟩ := hnumbered.station.owns hlast
      have hsent := hnumbered.emit_information hs false
      rw [append_assoc] at hsent
      obtain ⟨own', hsegs, hside⟩ := @ih _
        { ertm with
          nextTxSeq := nextSeq ertm.nextTxSeq
          unacked := ertm.unacked ++ [{ frame with txSeq := ertm.nextTxSeq, transmissions := 1 }] }
        (out.pushFrame _) hsent
      exact ⟨own', hsegs, hside⟩
    · exact ⟨own, rfl, h⟩

theorem Station.armTimers (h : Station params own peerSegs ertm link got) :
    Station params own peerSegs ertm.armTimers link got := by
  unfold Ertm.armTimers
  split
  · exact h.congr rfl rfl rfl rfl rfl rfl
  · split
    · exact h.congr rfl rfl rfl rfl rfl rfl
    · exact h

theorem Side.armTimers (h : Side params own peer ertm link got) :
    Side params own peer ertm.armTimers link got := h.congr h.station.armTimers

theorem Side.pump (h : Side params own peer ertm (link ++ out.frames) (got ++ out.sdus)) :
    Held params own peer link got (ertm.pump out) := by
  unfold Ertm.pump
  split
  · exact ⟨own, rfl, h⟩
  · obtain ⟨own', hsegs, hside⟩ := h.pumpQueue
    exact ⟨own', hsegs, hside.armTimers⟩

/-! ## Receiving a frame -/

/-- The frames retired by an acknowledgement of segment `r` are those before it.
-/
theorem dropWhile_acknowledged {r : ℕ} {frames : List Unacked}
    (hnumbered : Numbered base (frames.map Unacked.txSeq)) (hlow : base ≤ r)
    (hhigh : r ≤ base + frames.length) (hwindow : frames.length ≤ 32) :
    (frames.dropWhile fun front =>
      decide (distance front.txSeq (r % seqModulo) ≠ 0 ∧
        distance front.txSeq (r % seqModulo) ≤ seqModulo / 2)) = frames.drop (r - base) := by
  induction frames generalizing base with
  | nil => simp
  | cons frame frames ih =>
    simp only [length_cons] at hhigh hwindow
    obtain ⟨hfront, hrest⟩ := hnumbered
    have hdistance : distance frame.txSeq (r % seqModulo) = r - base := by
      rw [distance, hfront]
      exact distance_mod hlow (by rw [seqModulo]; omega)
    rw [dropWhile_cons, hdistance]
    rcases Nat.eq_zero_or_pos (r - base) with hzero | hpos
    · simp [hzero]
    · rw [if_pos (by rw [decide_eq_true_eq, seqModulo]; omega)]
      rw [ih hrest (by omega) (by omega) (by omega),
        show r - base = (r - (base + 1)) + 1 by omega, drop_succ_cons]

theorem Side.acknowledge
    (h : Side params own peer ertm link got) (hpeer : peer.tags = tag :: tags) :
    Side params { own with base := tag.ack } peer (ertm.acknowledge (tag.ack % seqModulo))
      link got := by
  have hacks : peer.acks = tag.ack :: tags.map Tag.ack := by
    rw [Ghost.acks, hpeer, map_cons]
  have houtbound := h.outbound
  rw [hacks] at houtbound
  have hlow : own.base ≤ tag.ack := houtbound.base_le_acks _ (mem_cons_self ..)
  have hhigh : tag.ack ≤ own.next :=
    (houtbound.acks_le _ (mem_cons_self ..)).trans houtbound.expected_le
  have hnext := h.station.next_eq
  have hwindow := houtbound.next_le
  have hretired := dropWhile_acknowledged h.station.numbered hlow (by omega) (by omega)
  have hlength : tag.ack - own.base ≤ ertm.unacked.length := by omega
  refine ⟨?_, ?_, h.inbound⟩
  · refine { h.station with numbered := ?_, next_eq := ?_, contents := ?_, .. }
    · simp only [Ertm.acknowledge, hretired]
      have hdrop := h.station.numbered.drop (i := tag.ack - own.base) (by simpa using hlength)
      rwa [Nat.add_sub_cancel' hlow, ← map_drop] at hdrop
    · simp only [Ertm.acknowledge, hretired, length_drop]
      omega
    · simp only [Ertm.acknowledge, hretired]
      rw [← drop_append_of_le_length hlength, map_drop, h.station.contents,
        drop_drop, Nat.add_sub_cancel' hlow]
  · rw [hacks]
    exact houtbound.acknowledge

/-- `reassemble` does to the engine what `accept` does to the SDU being
reassembled. -/
theorem reassemble_eq (ertm : Ertm) (segment : Segment) (out : ErtmOutput) :
    ∃ discarded, ertm.reassemble segment.sar segment.sduLen segment.payload out =
      ({ ertm with
          reassembly := (accept ertm.params.localMtu ertm.reassembly segment).1
          discarded },
        { out with
          sdus := out.sdus ++ (accept ertm.params.localMtu ertm.reassembly segment).2 }) := by
  obtain ⟨sar, sduLen, payload⟩ := segment
  cases sar with
  | unsegmented => exact ⟨_, rfl⟩
  | start =>
    simp only [Ertm.reassemble, accept]
    split
    · exact ⟨_, by rw [append_nil]; rfl⟩
    · exact ⟨_, by rw [append_nil]⟩
  | continuation =>
    cases hreassembly : ertm.reassembly with
    | none =>
      refine ⟨ertm.discard.discarded, ?_⟩
      simp only [Ertm.reassemble, hreassembly, accept, Option.map_none, append_nil]
      rw [← hreassembly]
      rfl
    | some state =>
      refine ⟨ertm.discarded, ?_⟩
      simp only [Ertm.reassemble, hreassembly, accept, Option.map_some, append_nil]
  | end_ =>
    cases hreassembly : ertm.reassembly with
    | none =>
      refine ⟨ertm.discard.discarded, ?_⟩
      simp only [Ertm.reassemble, hreassembly, accept, append_nil]
      rw [← hreassembly]
      rfl
    | some state =>
      simp only [Ertm.reassemble, hreassembly, accept]
      split
      · exact ⟨_, rfl⟩
      · exact ⟨_, by rw [append_nil]; rfl⟩

section

variable (h : Side params own peer ertm (link ++ out.frames) (got ++ out.sdus))
include h

theorem Side.take {segment : Segment}
    (hpeer : peer.tags = tag :: tags) (hdata : tag.data = some own.expected)
    (hsegment : peer.segs[own.expected]? = some segment) :
    let taken := ({ ertm with
      rejected := false
      expectedTxSeq := nextSeq ertm.expectedTxSeq } : Ertm).reassemble segment.sar segment.sduLen
        segment.payload out
    Side params { own with expected := own.expected + 1 } peer taken.1
      (link ++ taken.2.frames) (got ++ taken.2.sdus) := by
  have hinbound := h.inbound
  have hhead : peer.data = own.expected :: tags.filterMap Tag.data := by
    rw [Ghost.data, hpeer, filterMap_cons, hdata]
  rw [hhead] at hinbound
  obtain ⟨discarded, htaken⟩ := reassemble_eq
    { ertm with rejected := false, expectedTxSeq := nextSeq ertm.expectedTxSeq } segment out
  dsimp only
  rw [htaken]
  refine ⟨?_, h.outbound, ?_⟩
  · refine { h.station with expectedTxSeq := ?_, reassembled := ?_, .. }
    · change nextSeq ertm.expectedTxSeq = (own.expected + 1) % seqModulo
      rw [nextSeq, h.station.expectedTxSeq, Nat.mod_add_mod]
    · have hbound : own.expected < peer.segs.length := (List.getElem?_eq_some_iff.mp hsegment).1
      have hlast : peer.segs[own.expected] = segment :=
        (List.getElem?_eq_some_iff.mp hsegment).2
      change deliver params.localMtu none (peer.segs.take (own.expected + 1)) = _
      rw [take_succ_eq_append_getElem hbound, hlast, deliver_concat, h.station.reassembled,
        ← h.station.params_eq, append_assoc]
  · rw [hhead]
    exact hinbound.accept (by decide)

theorem Side.onInformation {segment : Segment}
    (hpeer : peer.tags = tag :: tags) (hdata : tag.data = some s)
    (hsegment : peer.segs[s]? = some segment) : Held params own peer link got
      (ertm.onInformation (s % seqModulo) segment.sar segment.sduLen segment.payload out) := by
  unfold Ertm.onInformation
  split
  · -- Not the expected number: the frame is only answered.
    split
    · have hrejected : Side params own peer { ertm with rejected := true } (link ++ out.frames)
          (got ++ out.sdus) := h.congr (h.station.congr rfl rfl rfl rfl rfl rfl)
      have hsent := hrejected.emit_supervisory .reject (by simp) false false
      rw [append_assoc] at hsent
      exact ⟨own.emit none, rfl, hsent⟩
    · have hsent := h.emit_supervisory .receiverReady (by simp) false false
      rw [append_assoc] at hsent
      exact ⟨own.emit none, rfl, hsent⟩
  · rename_i hnumber
    have hmod : s % seqModulo = own.expected % seqModulo := by
      rw [← h.station.expectedTxSeq]
      exact Classical.not_not.mp hnumber
    have hmem : s ∈ peer.data := by
      rw [Ghost.data, hpeer]
      exact mem_filterMap.mpr ⟨tag, mem_cons_self .., hdata⟩
    have hexpected : s = own.expected := h.inbound.eq_of_mod_eq (by decide) hmem hmod
    subst hexpected
    have hsent := (h.take hpeer hdata hsegment).emit_supervisory .receiverReady
      (by simp) false false
    rw [append_assoc] at hsent
    exact ⟨({ own with expected := own.expected + 1 } : Ghost).emit none, rfl, hsent⟩

theorem Side.onSupervisory (function : Supervisory) (reqSeq : ℕ) (poll : Bool) :
    Resent params own peer link got (ertm.onSupervisory function reqSeq poll out) := by
  have hbusy : ∀ remoteBusy, Side params own peer { ertm with remoteBusy } (link ++ out.frames)
      (got ++ out.sdus) := fun remoteBusy => h.congr (h.station.congr rfl rfl rfl rfl rfl rfl)
  have hanswer : ∀ result : Ertm × ErtmOutput, Resent params own peer link got result →
      Resent params own peer link got (if poll then
        (result.1, result.2.pushFrame (result.1.supervisory .receiverReady false true))
        else result) := by
    intro result ⟨tags, hside⟩
    split
    · have hsent := hside.emit_supervisory .receiverReady (by simp) false true
      rw [append_assoc] at hsent
      exact ⟨_, hsent⟩
    · exact ⟨tags, hside⟩
  unfold Ertm.onSupervisory
  apply hanswer
  cases function with
  | receiverReady => exact ⟨own.tags, hbusy false⟩
  | reject => exact (hbusy false).retransmitAll
  | receiverNotReady => exact ⟨own.tags, hbusy true⟩
  | selectiveReject => exact (hbusy false).retransmitOne reqSeq
  | other raw => exact ⟨own.tags, h⟩

theorem Side.takeFinal
    (frame : Frame) : Resent params own peer link got (ertm.takeFinal frame out) := by
  unfold Ertm.takeFinal
  split
  · have hcleared : Side params own peer
        { ertm with waitingForFinal := false, monitorTimer := none, polls := 0 }
        (link ++ out.frames) (got ++ out.sdus) :=
      h.congr (h.station.congr rfl rfl rfl rfl rfl rfl)
    dsimp only
    split
    · exact ⟨own.tags, hcleared⟩
    · exact hcleared.retransmitAll
  · exact ⟨own.tags, h⟩

theorem Side.dispatch {frame : Frame}
    (hpeer : peer.tags = tag :: tags) (htagged : Tagged peer.segs tag frame) :
    Held params own peer link got (ertm.dispatch frame out) := by
  cases frame with
  | supervisory function reqSeq poll finalBit =>
    exact (h.onSupervisory function reqSeq poll).held
  | information txSeq reqSeq finalBit sar sduLen payload =>
    obtain ⟨s, hdata, htxSeq, hsegment⟩ := htagged.body
    rw [htxSeq]
    exact h.onInformation hpeer hdata hsegment

end

/-- **The engine keeps the invariant over every frame its peer has in flight.**
-/
theorem Side.receiveFrame {frame : Frame}
    (h : Side params own peer ertm link got) (hpeer : peer.tags = tag :: tags)
    (htagged : Tagged peer.segs tag frame) :
    Held params own peer link got (ertm.receiveFrame frame) := by
  have hacknowledged := h.acknowledge hpeer
  rw [← htagged.reqSeq] at hacknowledged
  have hstart : Side params { own with base := tag.ack } peer (ertm.acknowledge frame.reqSeq)
      (link ++ ({} : ErtmOutput).frames) (got ++ ({} : ErtmOutput).sdus) := by
    simpa using hacknowledged
  obtain ⟨tags', hfinal⟩ := hstart.takeFinal frame
  obtain ⟨handled, hhandled, hdispatched⟩ := hfinal.dispatch hpeer htagged
  obtain ⟨own', hsegs, hpumped⟩ := hdispatched.pump
  exact ⟨own', hsegs.trans hhandled, hpumped.armTimers⟩

/-! ## Time -/

theorem Side.tick (h : Side params own peer ertm link got) (elapsed : ℕ) :
    Held params own peer link got (ertm.tick elapsed) := by
  have hquiet : ∀ {ertm' : Ertm}, Side params own peer ertm' link got →
      Side params own peer ertm' (link ++ ({} : ErtmOutput).frames)
        (got ++ ({} : ErtmOutput).sdus) := fun h' => by simpa using h'
  have hpoll : ∀ {ertm' : Ertm}, Side params own peer ertm' link got →
      Resent params own peer link got (ertm'.poll {}) := by
    intro ertm' h'
    have hsent := h'.emit_supervisory .receiverReady (by simp) true false
    refine ⟨(own.emit none).tags, ?_⟩
    simp only [Ertm.poll, ErtmOutput.frames_pushFrame, ErtmOutput.sdus_pushFrame,
      nil_append, append_nil]
    exact hsent.congr (hsent.station.congr rfl rfl rfl rfl rfl rfl)
  have htimed : Resent params own peer link got (ertm.runTimers elapsed) := by
    unfold Ertm.runTimers
    split
    · split
      · dsimp only
        have hstopped : Side params own peer { ertm with monitorTimer := none } link got :=
          h.congr (h.station.congr rfl rfl rfl rfl rfl rfl)
        split
        · exact ⟨own.tags, hquiet hstopped⟩
        · exact hpoll hstopped
      · exact ⟨own.tags, hquiet (h.congr (h.station.congr rfl rfl rfl rfl rfl rfl))⟩
    · split
      · exact hpoll (h.congr (h.station.congr rfl rfl rfl rfl rfl rfl))
      · exact ⟨own.tags, hquiet (h.congr (h.station.congr rfl rfl rfl rfl rfl rfl))⟩
    · exact ⟨own.tags, hquiet h⟩
  unfold Ertm.tick
  dsimp only
  split
  · exact htimed.held
  · obtain ⟨tags, hside⟩ := htimed
    obtain ⟨own', hsegs, hpumped⟩ := hside.pump
    exact ⟨own', hsegs, hpumped⟩

/-! ## Two engines and two lossy links -/

/-- One end of a channel: its engine, the frames it has put on its outgoing
link that are still in flight, what was passed to `send` and what `receive` has
output. -/
structure Endpoint where
  engine : Ertm
  link : List Bytes := []
  sent : List Bytes := []
  received : List Bytes := []

namespace Endpoint

/-- Write what a call produced to the link and to the layer above. -/
def record (endpoint : Endpoint) (result : Ertm × ErtmOutput) : Endpoint :=
  { endpoint with
    engine := result.1
    link := endpoint.link ++ result.2.frames
    received := endpoint.received ++ result.2.sdus }

def send (endpoint : Endpoint) (sdu : Bytes) : Endpoint :=
  match endpoint.engine.send sdu with
  | .ok result => { endpoint.record result with sent := endpoint.sent ++ [sdu] }
  | .error _ => { endpoint with sent := endpoint.sent ++ [sdu] }

def receive (endpoint : Endpoint) (payload : Bytes) : Endpoint :=
  match endpoint.engine.receive payload with
  | .ok result => endpoint.record result
  | .error _ => endpoint

def tick (endpoint : Endpoint) (elapsed : ℕ) : Endpoint :=
  endpoint.record (endpoint.engine.tick elapsed)

end Endpoint

/-- One end moves, or its incoming link does: `a` is that end and `b` its peer.
-/
inductive Move : Endpoint → Endpoint → Endpoint → Endpoint → Prop
  | send {a b : Endpoint} (sdu : Bytes)
      (hmtu : sdu.length ≤ b.engine.params.localMtu.toNat) : Move a b (a.send sdu) b
  | receive {a b : Endpoint} {payload : Bytes} {link : List Bytes}
      (hlink : b.link = payload :: link) : Move a b (a.receive payload) { b with link }
  | tick {a b : Endpoint} (elapsed : ℕ) : Move a b (a.tick elapsed) b
  | lose {a b : Endpoint} {link : List Bytes} (hlink : link.Sublist b.link) :
      Move a b a { b with link }
  /-- A frame arrives as something that does not decode. -/
  | corrupt {a b : Endpoint} {payload : Bytes} {link : List Bytes} (received : Bytes)
      {e : L2capError} (hlink : b.link = payload :: link)
      (he : Frame.decode received a.engine.params.localCid a.engine.params.fcs = .error e) :
      Move a b (a.receive received) { b with link }

/-- Two ends of one channel. -/
structure Duplex where
  a : Endpoint
  b : Endpoint

namespace Duplex

/-- Freshly configured engines and empty links. -/
def start (pa pb : ErtmParameters) : Duplex := ⟨{ engine := .new pa }, { engine := .new pb }⟩

/-- Either end moves. -/
inductive Step : Duplex → Duplex → Prop
  | left {a b a' b' : Endpoint} (hmove : Move a b a' b') : Step ⟨a, b⟩ ⟨a', b'⟩
  | right {a b a' b' : Endpoint} (hmove : Move b a b' a') : Step ⟨a, b⟩ ⟨a', b'⟩

end Duplex

/-- What the two ends agreed on: mirrored identifiers, the same checksum, and a
window within what the multiplexer clamps to. -/
structure Mirrored (pa pb : ErtmParameters) : Prop where
  cid_ab : pa.remoteCid = pb.localCid
  cid_ba : pb.remoteCid = pa.localCid
  fcs_eq : pa.fcs = pb.fcs
  window_a : pa.sendWindow.toNat ≤ 32
  window_b : pb.sendWindow.toNat ≤ 32

theorem Mirrored.symm {pa pb : ErtmParameters} (h : Mirrored pa pb) : Mirrored pb pa :=
  ⟨h.cid_ba, h.cid_ab, h.fcs_eq.symm, h.window_b, h.window_a⟩

/-- The invariant of both ends together. -/
structure Joined (pa pb : ErtmParameters) (ga gb : Ghost) (a b : Endpoint) : Prop where
  near : Side pa ga gb a.engine a.link a.received
  far : Station pb gb ga.segs b.engine b.link b.received
  segs_a : ga.segs = a.sent.flatMap (segmentsOf pa.sendMps)
  segs_b : gb.segs = b.sent.flatMap (segmentsOf pb.sendMps)
  mtu_a : ∀ sdu ∈ a.sent, sdu.length ≤ pb.localMtu.toNat
  mtu_b : ∀ sdu ∈ b.sent, sdu.length ≤ pa.localMtu.toNat

variable {pa pb : ErtmParameters} {ga gb : Ghost} {a b a' b' : Endpoint}

theorem Joined.symm (h : Joined pa pb ga gb a b) : Joined pb pa gb ga b a :=
  ⟨⟨h.far, h.near.inbound, h.near.outbound⟩, h.near.station, h.segs_b, h.segs_a, h.mtu_b, h.mtu_a⟩

theorem Joined.start (h : Mirrored pa pb) :
    Joined pa pb {} {} (Duplex.start pa pb).a (Duplex.start pa pb).b := by
  have hstation : ∀ params : ErtmParameters, params.sendWindow.toNat ≤ 32 →
      Station params {} [] (.new params) [] [] := by
    intro params hwindow
    exact ⟨rfl, hwindow, by simp, .nil, rfl, trivial, rfl, rfl, le_rfl, rfl, rfl⟩
  exact ⟨⟨hstation pa h.window_a, .init 32, .init 32⟩, hstation pb h.window_b, rfl, rfl,
    by simp [Duplex.start], by simp [Duplex.start]⟩

/-- The engine's new state after a call that sent nothing of ours for the first
time. -/
theorem Joined.record (h : Joined pa pb ga gb a b) {result : Ertm × ErtmOutput}
    (hresult : Held pa ga gb a.link a.received result) :
    ∃ ga', Joined pa pb ga' gb (a.record result) b := by
  obtain ⟨ga', hsegs, hside⟩ := hresult
  refine ⟨ga', hside, ?_, hsegs.trans h.segs_a, h.segs_b, h.mtu_a, h.mtu_b⟩
  rw [hsegs]
  exact h.far

/-- The peer's link loses the frames not in `tags`. -/
theorem Joined.lose (h : Joined pa pb ga gb a b) {link : List Bytes}
    (htags : tags.Sublist gb.tags) (hcarried : List.Forall₂ (Carries pb gb.segs) tags link) :
    Joined pa pb ga { gb with tags } a { b with link } where
  near :=
    { station := h.near.station
      outbound := h.near.outbound.lose (List.Sublist.refl _) (htags.map _)
      inbound := h.near.inbound.lose (htags.filterMap _) (List.Sublist.refl _) }
  far := { h.far with carried := hcarried }
  segs_a := h.segs_a
  segs_b := h.segs_b
  mtu_a := h.mtu_a
  mtu_b := h.mtu_b

/-! ### Sending -/

theorem segmentsOf_wellFormed (sendMps : UInt16) (sdu : Bytes) :
    ∀ segment ∈ segmentsOf sendMps sdu, segment.WellFormed := by
  have hlater : ∀ {mps : ℕ} (hmps : 0 < mps) (rest : Bytes),
      ∀ frame ∈ Ertm.laterSegments mps hmps rest, frame.segment.WellFormed := by
    intro mps hmps rest
    induction rest using Ertm.laterSegments.induct mps hmps with
    | case1 => simp [Ertm.laterSegments]
    | case2 byte rest ih =>
      rw [Ertm.laterSegments]
      intro frame hframe
      rcases mem_cons.mp hframe with rfl | hframe
      · simp only [Segment.WellFormed, Unacked.segment]
        split <;> simp
      · exact ih frame hframe
  intro segment hsegment
  obtain ⟨frame, hframe, rfl⟩ := mem_map.mp hsegment
  simp only [Ertm.segments] at hframe
  split at hframe
  · rw [mem_singleton.mp hframe]
    simp [Segment.WellFormed, Unacked.segment]
  · rcases mem_cons.mp hframe with rfl | hframe
    · simp [Segment.WellFormed, Unacked.segment]
    · exact hlater _ _ frame hframe

theorem Tagged.extend {frame : Frame}
    (h : Tagged segs tag frame) : Tagged (segs ++ more) tag frame where
  wellFormed := h.wellFormed
  reqSeq := h.reqSeq
  body := by
    have hbody := h.body
    cases frame with
    | supervisory function reqSeq poll finalBit => exact hbody
    | information txSeq reqSeq finalBit sar sduLen payload =>
      obtain ⟨s, hdata, htxSeq, hsegment⟩ := hbody
      have hbound := (List.getElem?_eq_some_iff.mp hsegment).1
      exact ⟨s, hdata, htxSeq, by rwa [getElem?_append_left hbound]⟩

theorem Side.queue (h : Side params own peer ertm link got) (sdu : Bytes) :
    Side params { own with segs := own.segs ++ segmentsOf params.sendMps sdu } peer
      { ertm with queued := ertm.queued ++ Ertm.segments ertm.params.sendMps sdu } link got where
  station :=
    { h.station with
      segs_wellFormed := by
        intro segment hsegment
        rcases mem_append.mp hsegment with hsegment | hsegment
        · exact h.station.segs_wellFormed segment hsegment
        · exact segmentsOf_wellFormed _ _ segment hsegment
      carried := h.station.carried.imp fun tag bytes hcarries => by
        obtain ⟨frame, htagged, hbytes⟩ := hcarries
        exact ⟨frame, htagged.extend, hbytes⟩
      contents := by
        have hbase : own.base ≤ own.segs.length := by
          have := h.station.next_eq
          have := h.station.next_le
          omega
        change (ertm.unacked ++ (ertm.queued ++ _)).map Unacked.segment = List.drop own.base _
        rw [← append_assoc, map_append, h.station.contents, h.station.params_eq,
          drop_append_of_le_length hbase]
        rfl
      next_le := by
        have hle := h.station.next_le
        change own.next ≤ (own.segs ++ _).length
        rw [length_append]
        omega }
  outbound := h.outbound
  inbound := h.inbound

/-- More segments at the peer do not change what was reassembled from the first
of them. -/
theorem Station.extend
    (h : Station params own peerSegs ertm link got) (hexpected : own.expected ≤ peerSegs.length) :
    Station params own (peerSegs ++ more) ertm link got :=
  { h with reassembled := by rw [take_append_of_le_length hexpected]; exact h.reassembled }

theorem Joined.send (h : Joined pa pb ga gb a b) {sdu : Bytes}
    (hmtu : sdu.length ≤ pb.localMtu.toNat) : ∃ ga', Joined pa pb ga' gb (a.send sdu) b := by
  have hsmall : ¬sdu.length > 65535 := by
    have := pb.localMtu.toNat_lt
    omega
  have hqueued := h.near.queue sdu
  have hstart : Side pa { ga with segs := ga.segs ++ segmentsOf pa.sendMps sdu } gb
      { a.engine with queued := a.engine.queued ++ Ertm.segments a.engine.params.sendMps sdu }
      (a.link ++ ({} : ErtmOutput).frames) (a.received ++ ({} : ErtmOutput).sdus) := by
    simpa using hqueued
  obtain ⟨ga', hsegs, hpumped⟩ := hstart.pump
  simp only at hsegs
  have hexpected : gb.expected ≤ ga.segs.length :=
    h.near.outbound.expected_le.trans h.near.station.next_le
  simp only [Endpoint.send, Ertm.send, if_neg hsmall]
  refine ⟨ga', hpumped, ?_, ?_, h.segs_b, ?_, h.mtu_b⟩
  · rw [hsegs]
    exact h.far.extend hexpected
  · rw [hsegs, h.segs_a, flatMap_append, flatMap_singleton]
  · intro other hother
    rcases mem_append.mp hother with hother | hother
    · exact h.mtu_a other hother
    · rwa [mem_singleton.mp hother]

/-! ### Receiving -/

/-- A payload in flight decodes, at the other end, to the frame its tag
describes. -/
theorem Carries.decode (hmirrored : Mirrored pa pb)
    {payload : Bytes} (h : Carries pb segs tag payload) :
    ∃ frame, Tagged segs tag frame ∧ Frame.decode payload pa.localCid pa.fcs = .ok frame := by
  obtain ⟨frame, htagged, rfl⟩ := h
  refine ⟨frame, htagged, ?_⟩
  rw [hmirrored.cid_ba, hmirrored.fcs_eq]
  exact Frame.decode_encode htagged.wellFormed _ _

theorem Joined.receive (hmirrored : Mirrored pa pb) (h : Joined pa pb ga gb a b)
    {payload : Bytes} {link : List Bytes} (hlink : b.link = payload :: link) :
    ∃ ga' gb', Joined pa pb ga' gb' (a.receive payload) { b with link } := by
  have hcarried := h.far.carried
  rw [hlink] at hcarried
  obtain ⟨tag, tags, hhead, hrest, htags⟩ := forall₂_cons_right_iff.mp hcarried
  obtain ⟨frame, htagged, hdecode⟩ := hhead.decode hmirrored
  have hreceive : a.engine.receive payload = .ok (a.engine.receiveFrame frame) := by
    rw [Ertm.receive, h.near.station.params_eq, hdecode]
  obtain ⟨ga', hjoined⟩ := h.record (h.near.receiveFrame htags htagged)
  refine ⟨ga', { gb with tags }, ?_⟩
  rw [Endpoint.receive, hreceive]
  exact hjoined.lose (by rw [htags]; exact sublist_cons_self _ _) hrest

theorem Joined.corrupt (h : Joined pa pb ga gb a b) {received : Bytes} {e : L2capError}
    (he : Frame.decode received a.engine.params.localCid a.engine.params.fcs = .error e) :
    Joined pa pb ga gb (a.receive received) b := by
  have hdiscard : Joined pa pb ga gb (a.record (a.engine.discard, {})) b := by
    have hside : Side pa ga gb a.engine.discard a.link a.received :=
      h.near.congr (h.near.station.congr rfl rfl rfl rfl rfl rfl)
    refine ⟨?_, h.far, h.segs_a, h.segs_b, h.mtu_a, h.mtu_b⟩
    simpa [Endpoint.record] using hside
  simp only [Endpoint.receive, Ertm.receive, he]
  cases e <;> first | exact h | exact hdiscard

/-! ### The invariant of every run -/

/-- Any part of the frames in flight is described by a part of their tags. -/
theorem exists_tags_of_sublist {R : Tag → Bytes → Prop}
    {link kept : List Bytes} (h : List.Forall₂ R tags link) (hkept : kept.Sublist link) :
    ∃ tags', tags'.Sublist tags ∧ List.Forall₂ R tags' kept := by
  induction hkept generalizing tags with
  | slnil => exact ⟨[], nil_sublist _, .nil⟩
  | cons payload hkept ih =>
    obtain ⟨tag, rest, hhead, hrest, rfl⟩ := forall₂_cons_right_iff.mp h
    obtain ⟨tags', hsub, hcarried⟩ := ih hrest
    exact ⟨tags', hsub.cons _, hcarried⟩
  | cons_cons payload hkept ih =>
    obtain ⟨tag, rest, hhead, hrest, rfl⟩ := forall₂_cons_right_iff.mp h
    obtain ⟨tags', hsub, hcarried⟩ := ih hrest
    exact ⟨tag :: tags', hsub.cons_cons _, .cons hhead hcarried⟩

theorem Joined.move (hmirrored : Mirrored pa pb) (h : Joined pa pb ga gb a b)
    (hmove : Move a b a' b') : ∃ ga' gb', Joined pa pb ga' gb' a' b' := by
  cases hmove with
  | send sdu hmtu =>
    rw [h.far.params_eq] at hmtu
    obtain ⟨ga', hjoined⟩ := h.send hmtu
    exact ⟨ga', gb, hjoined⟩
  | receive hlink => exact h.receive hmirrored hlink
  | tick elapsed =>
    obtain ⟨ga', hjoined⟩ := h.record (h.near.tick elapsed)
    exact ⟨ga', gb, hjoined⟩
  | lose hlink =>
    obtain ⟨tags, hsub, hcarried⟩ := exists_tags_of_sublist h.far.carried hlink
    exact ⟨ga, { gb with tags }, h.lose hsub hcarried⟩
  | corrupt received hlink he =>
    have hcarried := h.far.carried
    rw [hlink] at hcarried
    obtain ⟨tag, tags, hhead, hrest, htags⟩ := forall₂_cons_right_iff.mp hcarried
    refine ⟨ga, { gb with tags }, (h.corrupt he).lose ?_ hrest⟩
    rw [htags]
    exact sublist_cons_self _ _

theorem joined_of_reachable (hmirrored : Mirrored pa pb) {d : Duplex}
    (hrun : Relation.ReflTransGen Duplex.Step (Duplex.start pa pb) d) :
    ∃ ga gb, Joined pa pb ga gb d.a d.b := by
  induction hrun with
  | refl => exact ⟨{}, {}, Joined.start hmirrored⟩
  | tail hrun hstep ih =>
    obtain ⟨ga, gb, hjoined⟩ := ih
    cases hstep with
    | left hmove => exact hjoined.move hmirrored hmove
    | right hmove =>
      obtain ⟨gb', ga', hmoved⟩ := hjoined.symm.move hmirrored.symm hmove
      exact ⟨ga', gb', hmoved.symm⟩

/-- What one end has output is a prefix of what the other end was given. -/
theorem Joined.received_prefix (h : Joined pa pb ga gb a b) : b.received <+: a.sent := by
  have hreassembled := congrArg Prod.snd h.far.reassembled
  rw [h.segs_a] at hreassembled
  rw [← show _ = b.received from hreassembled]
  exact deliver_take_prefix pa.sendMps h.mtu_a none gb.expected

/-- **Delivery is exactly once, in order and intact**, in both directions, in
every state of every run. -/
theorem received_prefix_sent {pa pb : ErtmParameters} (hmirrored : Mirrored pa pb) {d : Duplex}
    (hrun : Relation.ReflTransGen Duplex.Step (Duplex.start pa pb) d) :
    d.b.received <+: d.a.sent ∧ d.a.received <+: d.b.sent := by
  obtain ⟨ga, gb, hjoined⟩ := joined_of_reachable hmirrored hrun
  exact ⟨hjoined.received_prefix, hjoined.symm.received_prefix⟩

/-! ### One frame across -/

/-- The parameters of one end of a channel between `0x0040` and `0x0041`. -/
def sampleParameters (localCid remoteCid : UInt16) : ErtmParameters where
  localCid := ⟨localCid⟩
  remoteCid := ⟨remoteCid⟩
  fcs := .crc16
  sendMps := 100
  sendWindow := 32
  maxTransmit := 3
  retransmissionTimeout := defaultRetransmissionTimeout
  monitorTimeout := defaultMonitorTimeout
  localMtu := 200

/-- The two ends after one frame has been sent and received. -/
def sampleDuplex : Duplex :=
  let a := (Duplex.start (sampleParameters 0x40 0x41) (sampleParameters 0x41 0x40)).a.send [1, 2, 3]
  let b : Endpoint := { engine := .new (sampleParameters 0x41 0x40) }
  ⟨{ a with link := [] }, b.receive (a.link.headD [])⟩

theorem received_prefix_sent_sample :
    sampleDuplex.b.received = [[1, 2, 3]] ∧ sampleDuplex.b.received <+: sampleDuplex.a.sent ∧
      sampleDuplex.a.received <+: sampleDuplex.b.sent := by
  refine ⟨by decide +kernel, ?_⟩
  have hmirrored : Mirrored (sampleParameters 0x40 0x41) (sampleParameters 0x41 0x40) :=
    ⟨rfl, rfl, rfl, by decide, by decide⟩
  refine received_prefix_sent hmirrored (.tail (.tail .refl (.left (.send [1, 2, 3] (by decide)))) ?_)
  exact .right (.receive rfl)

end Castaway.L2cap
