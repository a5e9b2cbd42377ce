import Castaway.Lib.Runs
import Mathlib.Algebra.Order.Ring.Nat
import Mathlib.Data.List.GetD

/-!
# When an AirPlay receiver asks for packets again

`ResendTracker` of `clock.rs`.  Sequence numbers are sixteen bits wide, so how
far ahead of the expected one a packet is, is read modulo `2 ^ 16`, and more
than half of that is a packet from the past.

## Strategy

Over a run the numbers are told apart by their *places*: `placeAt` counts what
is expected without wrapping, and the tracker holds its low sixteen bits
(`after_eq_map`).  A place is passed once, so it is asked for at most once.
-/

namespace Castaway.AirPlay

/-- A run of packets to ask the sender to send again. -/
structure ResendRequest where
  first : UInt16
  count : UInt16
  deriving DecidableEq, Repr

/-- A gap larger than this is a stream restart. -/
def maxGap : UInt16 := 128

/-- The sequence number that would be no gap, once a packet has been seen. -/
structure ResendTracker where
  nextExpected : Option UInt16 := none
  deriving DecidableEq, Repr

namespace ResendTracker

/-- Note a packet's arrival.  The request is for the gap it revealed, if any. -/
def onPacket (tracker : ResendTracker) (sequence : UInt16) : ResendTracker × Option ResendRequest :=
  match tracker.nextExpected with
  | none => (⟨some (sequence + 1)⟩, none)
  | some expected =>
    let ahead := sequence - expected
    if ahead = 0 then (⟨some (sequence + 1)⟩, none)
    -- a packet from the past fills no new gap
    else if 65535 / 2 < ahead then (tracker, none)
    else if maxGap < ahead then (⟨some (sequence + 1)⟩, none)
    else (⟨some (sequence + 1)⟩, some ⟨expected, ahead⟩)

end ResendTracker

/-! ## Places -/

/-- The place of the packet after this one, from the place expected before it.
-/
def nextPlace (place : Option ℕ) (sequence : UInt16) : Option ℕ :=
  match place with
  | none => some (sequence.toNat + 1)
  | some p =>
    let ahead := (sequence - UInt16.ofNat p).toNat
    if ahead ≤ 32767 then some (p + ahead + 1) else some p

variable (seen : List UInt16)

/-- The place expected after the first `k` packets. -/
def placeAt (k : ℕ) : Option ℕ := (seen.take k).foldl nextPlace none

/-- The tracker after the first `k` packets. -/
def trackerAt (k : ℕ) : ResendTracker :=
  (seen.take k).foldl (fun tracker sequence => (tracker.onPacket sequence).1) {}

/-- What packet `k` makes the receiver ask for. -/
def requestAt (k : ℕ) : Option ResendRequest :=
  seen[k]?.bind fun sequence => ((trackerAt seen k).onPacket sequence).2

/-- How far packet `k` is ahead of place `p`, modulo `2 ^ 16`. -/
def aheadAt (k p : ℕ) : ℕ := (seen.getD k 0 - UInt16.ofNat p).toNat

/-- Packet `k` opens a forward gap of at most 128 with place `n` in it. -/
def Skips (k n : ℕ) : Prop :=
  k < seen.length ∧ ∃ p, placeAt seen k = some p ∧ aheadAt seen k p ≤ 128 ∧
    p ≤ n ∧ n < p + aheadAt seen k p

/-- The request packet `k` makes, counted from the place expected, covers place
`n`. -/
def Covers (k n : ℕ) : Prop :=
  ∃ p request, placeAt seen k = some p ∧ requestAt seen k = some request ∧
    request.first = UInt16.ofNat p ∧ p ≤ n ∧ n < p + request.count.toNat

/-- Packet `k` is late: its number is that of one of the 32768 places before the
one expected, as it is for a packet that is repeated or sent again. -/
def Late (k : ℕ) : Prop :=
  ∃ p n, placeAt seen k = some p ∧ n < p ∧ p ≤ n + 32768 ∧ seen[k]? = some (UInt16.ofNat n)

variable {seen} {k j n : ℕ}

theorem placeAt_succ (hk : k < seen.length) :
    placeAt seen (k + 1) = nextPlace (placeAt seen k) seen[k] := take_succ_foldl hk

theorem trackerAt_succ (hk : k < seen.length) :
    trackerAt seen (k + 1) = ((trackerAt seen k).onPacket seen[k]).1 := take_succ_foldl hk

theorem requestAt_eq (hk : k < seen.length) :
    requestAt seen k = ((trackerAt seen k).onPacket seen[k]).2 := by
  rw [requestAt, List.getElem?_eq_getElem hk, Option.bind_some]

theorem aheadAt_eq (hk : k < seen.length) (p : ℕ) :
    aheadAt seen k p = (seen[k] - UInt16.ofNat p).toNat := by
  rw [aheadAt, List.getD_eq_getElem _ _ hk]

/-! ## One packet -/

/-- The number of the packet after `sequence` is that of the next place. -/
theorem ofNat_place (p : ℕ) (sequence : UInt16) :
    UInt16.ofNat (p + (sequence - UInt16.ofNat p).toNat + 1) = sequence + 1 := by
  rw [UInt16.ofNat_add, UInt16.ofNat_add, UInt16.ofNat_toNat, UInt16.add_comm (UInt16.ofNat p),
    UInt16.sub_add_cancel]
  rfl

theorem half_lt_iff {ahead : UInt16} : 65535 / 2 < ahead ↔ 32767 < ahead.toNat :=
  UInt16.lt_iff_toNat_lt

theorem maxGap_lt_iff {ahead : UInt16} : maxGap < ahead ↔ 128 < ahead.toNat :=
  UInt16.lt_iff_toNat_lt

theorem eq_zero_iff {ahead : UInt16} : ahead = 0 ↔ ahead.toNat = 0 := UInt16.toNat_inj.symm

variable {p : ℕ} {sequence : UInt16}

theorem onPacket_late (h : 32767 < (sequence - UInt16.ofNat p).toNat) :
    ResendTracker.onPacket ⟨some (UInt16.ofNat p)⟩ sequence = (⟨some (UInt16.ofNat p)⟩, none) := by
  have hne : ¬ sequence - UInt16.ofNat p = 0 := fun hzero => by
    rw [eq_zero_iff] at hzero
    omega
  rw [ResendTracker.onPacket]
  dsimp only
  rw [if_neg hne, if_pos (half_lt_iff.mpr h)]

/-- A packet at the place expected or ahead of it moves the place, and asks for
the ones between if they are not too many. -/
theorem onPacket_ahead (h : (sequence - UInt16.ofNat p).toNat ≤ 32767) :
    ResendTracker.onPacket ⟨some (UInt16.ofNat p)⟩ sequence =
      (⟨some (UInt16.ofNat (p + (sequence - UInt16.ofNat p).toNat + 1))⟩,
        if 1 ≤ (sequence - UInt16.ofNat p).toNat ∧ (sequence - UInt16.ofNat p).toNat ≤ 128 then
          some ⟨UInt16.ofNat p, sequence - UInt16.ofNat p⟩
        else none) := by
  rw [ofNat_place, ResendTracker.onPacket]
  dsimp only
  by_cases hzero : sequence - UInt16.ofNat p = 0
  · rw [if_pos hzero, if_neg (by rw [eq_zero_iff] at hzero; omega)]
  · rw [if_neg hzero, if_neg (by rw [half_lt_iff]; omega)]
    rw [eq_zero_iff] at hzero
    by_cases hgap : maxGap < sequence - UInt16.ofNat p
    · rw [if_pos hgap, if_neg (by rw [maxGap_lt_iff] at hgap; omega)]
    · rw [if_neg hgap, if_pos (by rw [maxGap_lt_iff] at hgap; omega)]

/-! ## Whole runs -/

theorem onPacket_place (place : Option ℕ) (sequence : UInt16) :
    (ResendTracker.onPacket ⟨place.map UInt16.ofNat⟩ sequence).1 =
      ⟨(nextPlace place sequence).map UInt16.ofNat⟩ := by
  cases place with
  | none =>
    change (⟨some (sequence + 1)⟩ : ResendTracker) = ⟨some (UInt16.ofNat (sequence.toNat + 1))⟩
    rw [UInt16.ofNat_add, UInt16.ofNat_toNat]
    rfl
  | some p =>
    rw [nextPlace, Option.map_some]
    split
    · next hahead => rw [onPacket_ahead hahead]; rfl
    · next hlate => rw [onPacket_late (Nat.lt_of_not_le hlate)]; rfl

/-- The tracker holds the low sixteen bits of the place expected. -/
theorem trackerAt_eq (seen : List UInt16) (k : ℕ) :
    trackerAt seen k = ⟨(placeAt seen k).map UInt16.ofNat⟩ := by
  have hfold (xs : List UInt16) (place : Option ℕ) :
      xs.foldl (fun tracker sequence => (tracker.onPacket sequence).1)
        (⟨place.map UInt16.ofNat⟩ : ResendTracker) =
        ⟨(xs.foldl nextPlace place).map UInt16.ofNat⟩ := by
    induction xs generalizing place with
    | nil => rfl
    | cons sequence xs ih => rw [List.foldl_cons, onPacket_place, ih, List.foldl_cons]
  exact hfold (seen.take k) none

theorem requestAt_of_place {p : ℕ} (hk : k < seen.length) (hp : placeAt seen k = some p) :
    requestAt seen k = (ResendTracker.onPacket ⟨some (UInt16.ofNat p)⟩ seen[k]).2 := by
  rw [requestAt_eq hk, trackerAt_eq, hp]
  rfl

theorem le_nextPlace (p : ℕ) (sequence : UInt16) :
    ∃ q, nextPlace (some p) sequence = some q ∧ p ≤ q := by
  rw [nextPlace]
  split
  · exact ⟨_, rfl, by omega⟩
  · exact ⟨p, rfl, Nat.le_refl p⟩

/-- The place expected never moves back. -/
theorem placeAt_mono {p : ℕ} (hjk : j ≤ k) (hp : placeAt seen j = some p) :
    ∃ q, placeAt seen k = some q ∧ p ≤ q := by
  induction hjk with
  | refl => exact ⟨p, hp, Nat.le_refl p⟩
  | step hjk ih =>
    rename_i k
    obtain ⟨q, hq, hpq⟩ := ih
    rcases Nat.lt_or_ge k seen.length with hk | hk
    · obtain ⟨r, hr, hqr⟩ := le_nextPlace q seen[k]
      exact ⟨r, by rw [placeAt_succ hk, hq, hr], hpq.trans hqr⟩
    · refine ⟨q, ?_, hpq⟩
      rw [placeAt, List.take_of_length_le hk] at hq
      rw [placeAt, List.take_of_length_le (Nat.le_succ_of_le hk), hq]

theorem covers_iff_skips : Covers seen k n ↔ Skips seen k n := by
  constructor
  · rintro ⟨p, request, hp, hrequest, -, hlow, hhigh⟩
    obtain ⟨sequence, hsequence, -⟩ := Option.bind_eq_some_iff.mp hrequest
    obtain ⟨hk, rfl⟩ := List.getElem?_eq_some_iff.mp hsequence
    rw [requestAt_of_place hk hp] at hrequest
    rcases Nat.lt_or_ge 32767 (seen[k] - UInt16.ofNat p).toNat with hlate | hahead
    · rw [onPacket_late hlate] at hrequest
      cases hrequest
    · rw [onPacket_ahead hahead] at hrequest
      dsimp only at hrequest
      split at hrequest
      · next hgap =>
          cases hrequest
          refine ⟨hk, p, hp, ?_, hlow, ?_⟩ <;> rw [aheadAt_eq hk]
          · exact hgap.2
          · exact hhigh
      · cases hrequest
  · rintro ⟨hk, p, hp, hgap, hlow, hhigh⟩
    rw [aheadAt_eq hk] at hgap hhigh
    refine ⟨p, ⟨UInt16.ofNat p, seen[k] - UInt16.ofNat p⟩, hp, ?_, rfl, hlow, hhigh⟩
    rw [requestAt_of_place hk hp, onPacket_ahead (by omega)]
    exact if_pos ⟨by omega, hgap⟩

/-- The packet that skips a place leaves the place expected behind it. -/
theorem Skips.passed (h : Skips seen k n) :
    ∃ q, placeAt seen (k + 1) = some q ∧ n < q := by
  obtain ⟨hk, p, hp, hgap, -, hhigh⟩ := h
  rw [aheadAt_eq hk] at hgap hhigh
  refine ⟨p + (seen[k] - UInt16.ofNat p).toNat + 1, ?_, by omega⟩
  rw [placeAt_succ hk, hp, nextPlace]
  exact if_pos (by omega)

theorem Skips.not_later (hj : Skips seen j n) (hk : Skips seen k n) : ¬ j < k := by
  intro hjk
  obtain ⟨q, hq, hnq⟩ := hj.passed
  obtain ⟨-, p, hp, -, hpn, -⟩ := hk
  obtain ⟨q', hq', hle⟩ := placeAt_mono hjk hq
  rw [hp] at hq'
  cases hq'
  omega

theorem Skips.eq (hj : Skips seen j n) (hk : Skips seen k n) : j = k := by
  have hjk := hj.not_later hk
  have hkj := hk.not_later hj
  omega

theorem late_unmoved (h : Late seen k) :
    trackerAt seen (k + 1) = trackerAt seen k ∧ requestAt seen k = none := by
  obtain ⟨p, n, hp, hlow, hhigh, hsequence⟩ := h
  obtain ⟨hk, hseen⟩ := List.getElem?_eq_some_iff.mp hsequence
  have hlate : 32767 < (seen[k] - UInt16.ofNat p).toNat := by
    rw [hseen, UInt16.toNat_sub, UInt16.toNat_ofNat', UInt16.toNat_ofNat']
    omega
  have htracker : trackerAt seen k = ⟨some (UInt16.ofNat p)⟩ := by
    rw [trackerAt_eq, hp]
    rfl
  rw [trackerAt_succ hk, requestAt_eq hk, htracker, onPacket_late hlate]
  exact ⟨rfl, rfl⟩

/-- **Every number skipped by a gap of at most 128 is asked for once, nothing
else is asked for, and a late packet changes nothing**, in every sequence of
packets. -/
theorem resend_exact (seen : List UInt16) : (∀ k n, Skips seen k n → ∃! j, Covers seen j n) ∧
    (∀ k n, Covers seen k n → Skips seen k n) ∧
    (∀ k, Late seen k → trackerAt seen (k + 1) = trackerAt seen k ∧ requestAt seen k = none) ∧
    (∀ j k p q, j ≤ k → placeAt seen j = some p → placeAt seen k = some q → p ≤ q) ∧
    ∀ k, trackerAt seen k = ⟨(placeAt seen k).map UInt16.ofNat⟩ := by
  refine ⟨fun k n hskips => ?_, fun k n => covers_iff_skips.mp, fun k => late_unmoved,
    fun j k p q hjk hp hq => ?_, trackerAt_eq seen⟩
  · exact ⟨k, covers_iff_skips.mpr hskips, fun j hj => (covers_iff_skips.mp hj).eq hskips⟩
  · obtain ⟨q', hq', hle⟩ := placeAt_mono hjk hp
    rw [hq] at hq'
    cases hq'
    exact hle

end Castaway.AirPlay
