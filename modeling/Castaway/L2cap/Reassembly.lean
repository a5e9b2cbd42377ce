import Castaway.L2cap.Ertm
import Mathlib.Order.Nat

/-!
# Segmenting and reassembling SDUs

What the receiving half of the engine does to a stream of segments that arrives
in order and without gaps: `deliver` reassembles a list of segments the way
`reassemble` takes them one at a time.  The segments of one SDU give that SDU
and nothing before the last of them (`deliver_segments`,
`deliver_segments_take`); a prefix of the segments of a list of SDUs gives a
prefix of the SDUs (`deliver_take_prefix`), wherever the prefix is cut.
-/

namespace Castaway.L2cap

open List

/-- What a data frame carries apart from its numbers. -/
structure Segment where
  sar : Segmentation
  sduLen : Option UInt16
  payload : Bytes
  deriving DecidableEq

/-- The part of a frame that does not change between transmissions. -/
def Unacked.segment (frame : Unacked) : Segment := ⟨frame.sar, frame.sduLen, frame.payload⟩

/-- The segments of one SDU. -/
def segmentsOf (sendMps : UInt16) (sdu : Bytes) : List Segment :=
  (Ertm.segments sendMps sdu).map Unacked.segment

/-! ## Reassembly as a function of the segments -/

/-- One segment against the SDU being reassembled: the new SDU under way, and
the SDU that was finished, if one was. -/
def accept (localMtu : UInt16) (reassembly : Option Reassembly) (segment : Segment) :
    Option Reassembly × List Bytes :=
  match segment.sar with
  | .unsegmented => (none, [segment.payload])
  | .start =>
    let expected := (segment.sduLen.getD 0).toNat
    if expected > localMtu.toNat then (none, []) else (some ⟨expected, segment.payload⟩, [])
  | .continuation =>
    (reassembly.map fun state => { state with buffer := state.buffer ++ segment.payload }, [])
  | .end_ =>
    match reassembly with
    | some state =>
      let buffer := state.buffer ++ segment.payload
      (none, if buffer.length = state.expected then [buffer] else [])
    | none => (none, [])

def deliver (localMtu : UInt16) : Option Reassembly → List Segment →
    Option Reassembly × List Bytes
  | reassembly, [] => (reassembly, [])
  | reassembly, segment :: rest =>
    let taken := accept localMtu reassembly segment
    let later := deliver localMtu taken.1 rest
    (later.1, taken.2 ++ later.2)

variable {localMtu : UInt16}

theorem deliver_append (reassembly : Option Reassembly) (before after : List Segment) :
    deliver localMtu reassembly (before ++ after) =
      ((deliver localMtu (deliver localMtu reassembly before).1 after).1,
        (deliver localMtu reassembly before).2 ++
          (deliver localMtu (deliver localMtu reassembly before).1 after).2) := by
  induction before generalizing reassembly with
  | nil => rfl
  | cons segment before ih =>
    simp only [cons_append, deliver, ih, append_assoc]

theorem deliver_concat (reassembly : Option Reassembly) (before : List Segment)
    (segment : Segment) : deliver localMtu reassembly (before ++ [segment]) =
      ((accept localMtu (deliver localMtu reassembly before).1 segment).1,
        (deliver localMtu reassembly before).2 ++
          (accept localMtu (deliver localMtu reassembly before).1 segment).2) := by
  rw [deliver_append]
  simp only [deliver, append_nil]

/-! ## The segments of one SDU -/

/-- The frames after the first finish the SDU exactly when its length was
announced right. -/
theorem deliver_laterSegments {mps : ℕ} (hmps : 0 < mps) (buffer : Bytes) {rest : Bytes}
    (hrest : rest ≠ []) : deliver localMtu (some ⟨buffer.length + rest.length, buffer⟩)
        ((Ertm.laterSegments mps hmps rest).map Unacked.segment) = (none, [buffer ++ rest]) := by
  induction rest using Ertm.laterSegments.induct mps hmps generalizing buffer with
  | case1 => exact absurd rfl hrest
  | case2 byte rest ih =>
    rw [Ertm.laterSegments]
    simp only [map_cons, Unacked.segment, deliver]
    by_cases hlast : (byte :: rest).length ≤ mps
    · have htake : (byte :: rest).take mps = byte :: rest := take_of_length_le hlast
      have hdrop : (byte :: rest).drop mps = [] := drop_eq_nil_of_le hlast
      rw [if_pos hlast, htake, hdrop, Ertm.laterSegments]
      simp [accept, deliver]
    · have hdrop : (byte :: rest).drop mps ≠ [] := by
        intro hnil
        exact hlast (drop_eq_nil_iff.mp hnil)
      have hlater := ih (buffer ++ (byte :: rest).take mps) hdrop
      have hlength : (buffer ++ (byte :: rest).take mps).length +
          ((byte :: rest).drop mps).length = buffer.length + (byte :: rest).length := by
        simp only [length_append, length_take, length_drop]
        omega
      rw [hlength, append_assoc, take_append_drop] at hlater
      rw [if_neg hlast]
      simp only [accept, Option.map_some, hlater, nil_append]

/-- Nothing is finished before the last frame of an SDU. -/
theorem deliver_laterSegments_take {mps : ℕ} (hmps : 0 < mps) {rest : Bytes}
    (reassembly : Option Reassembly) {k : ℕ} (hk : k < (Ertm.laterSegments mps hmps rest).length) :
    (deliver localMtu reassembly
      (((Ertm.laterSegments mps hmps rest).map Unacked.segment).take k)).2 = [] := by
  induction rest using Ertm.laterSegments.induct mps hmps generalizing reassembly k with
  | case1 => simp [Ertm.laterSegments] at hk
  | case2 byte rest ih =>
    rw [Ertm.laterSegments] at hk ⊢
    cases k with
    | zero => rfl
    | succ k =>
      -- Another frame follows, so this one does not end the SDU.
      have hmore : ¬(byte :: rest).length ≤ mps := by
        intro hlast
        rw [drop_eq_nil_of_le hlast, Ertm.laterSegments] at hk
        simp at hk
      rw [if_neg hmore]
      simp only [map_cons, take_succ_cons, Unacked.segment, deliver, accept,
        nil_append]
      exact ih _ (Nat.lt_of_succ_lt_succ hk)

/-- **The segments of an SDU reassemble to that SDU**, whatever was under way.
-/
theorem deliver_segments (sendMps : UInt16) {sdu : Bytes} (hmtu : sdu.length ≤ localMtu.toNat)
    (reassembly : Option Reassembly) :
    deliver localMtu reassembly (segmentsOf sendMps sdu) = (none, [sdu]) := by
  have hsmall : sdu.length < 65536 := lt_of_le_of_lt hmtu localMtu.toNat_lt
  have hfield : (UInt16.ofNat sdu.length).toNat = sdu.length := by
    rw [UInt16.toNat_ofNat']
    exact Nat.mod_eq_of_lt hsmall
  simp only [segmentsOf, Ertm.segments]
  split
  · rfl
  · rename_i hlong
    have hrest : sdu.drop (max (max sendMps.toNat 1 - 2) 1) ≠ [] := by
      intro hnil
      have := drop_eq_nil_iff.mp hnil
      omega
    have hlength : (sdu.take (max (max sendMps.toNat 1 - 2) 1)).length +
        (sdu.drop (max (max sendMps.toNat 1 - 2) 1)).length = sdu.length := by
      rw [← length_append, take_append_drop]
    have hlater := @deliver_laterSegments localMtu _ (show 0 < max sendMps.toNat 1 by omega)
      (sdu.take (max (max sendMps.toNat 1 - 2) 1)) _ hrest
    rw [hlength, take_append_drop] at hlater
    simp only [map_cons, Unacked.segment, deliver, accept, Option.getD_some, hfield,
      if_neg (not_lt.mpr hmtu), nil_append]
    exact hlater

/-- The segments of an SDU short of the last one deliver nothing. -/
theorem deliver_segments_take (sendMps : UInt16) (sdu : Bytes)
    (reassembly : Option Reassembly) {k : ℕ} (hk : k < (segmentsOf sendMps sdu).length) :
    (deliver localMtu reassembly ((segmentsOf sendMps sdu).take k)).2 = [] := by
  cases k with
  | zero => rfl
  | succ k =>
    simp only [segmentsOf, Ertm.segments] at hk ⊢
    split at hk
    · simp at hk
    · rename_i hlong
      rw [if_neg hlong]
      have hstart : ∀ (start : Option Reassembly × List Bytes) (later : List Segment),
          start.2 = [] → (deliver localMtu start.1 later).2 = [] →
          start.2 ++ (deliver localMtu start.1 later).2 = [] := by
        intro start later hfirst hlater
        rw [hfirst, hlater, nil_append]
      simp only [map_cons, take_succ_cons, Unacked.segment, deliver]
      refine hstart _ _ ?_ (deliver_laterSegments_take _ _ ?_)
      · simp only [accept]
        split <;> rfl
      · simpa using hk

/-! ## The segments of a list of SDUs -/

/-- **A prefix of the segments gives a prefix of the SDUs**, wherever it is cut.
-/
theorem deliver_take_prefix (sendMps : UInt16) {sdus : List Bytes}
    (hmtu : ∀ sdu ∈ sdus, sdu.length ≤ localMtu.toNat) (reassembly : Option Reassembly) (k : ℕ) :
    (deliver localMtu reassembly ((sdus.flatMap (segmentsOf sendMps)).take k)).2 <+: sdus := by
  induction sdus generalizing k reassembly with
  | nil => simp [deliver]
  | cons sdu sdus ih =>
    rw [flatMap_cons]
    rcases Nat.lt_or_ge k (segmentsOf sendMps sdu).length with hk | hk
    · rw [take_append_of_le_length hk.le, deliver_segments_take sendMps sdu _ hk]
      exact nil_prefix
    · rw [take_append, take_of_length_le hk, deliver_append,
        deliver_segments sendMps (hmtu sdu (mem_cons_self ..))]
      refine cons_prefix_cons.mpr ⟨rfl, ?_⟩
      exact ih (fun other hother => hmtu other (mem_cons_of_mem _ hother)) _ _

end Castaway.L2cap
