import Mathlib.Data.List.Basic
import Mathlib.Data.Int.ModEq

/-!
# Sliding windows over a lossy FIFO link

A sender numbers its frames `0, 1, 2, …` and keeps those in `[base, next)`
unacknowledged, never more than `W` of them.  The receiver takes frame
`expected` and nothing else, and says how far it got.  Data and
acknowledgements travel over two FIFO links that may lose any element but
never reorder, duplicate or invent one; the sender may resend any
unacknowledged frame at any time, so an old number can be in flight behind a
newer one.

## Strategy

On the wire only the numbers modulo `M` are seen.  `Window` collects what
makes that enough when `2 * W ≤ M`: a number in flight lies within `W` of
`expected` (`Window.eq_of_mod_eq`), and an acknowledgement lies within `W`
above `base` (`Window.distance_mod`).  Each move of the protocol has a lemma
saying that it keeps `Window`; none of them mentions what a frame carries.
-/

namespace Castaway

/-- The numbers of one direction: `base` and `next` are the sender's, `expected`
the receiver's, `data` are the frame numbers in flight and `acks` the
acknowledgements in flight, oldest first. -/
structure Window (W base next expected : ℕ) (data acks : List ℕ) : Prop where
  base_le : base ≤ expected
  expected_le : expected ≤ next
  next_le : next ≤ base + W
  data_lt : ∀ s ∈ data, s < next
  expected_le_data : ∀ s ∈ data, expected ≤ s + W
  data_near : data.Pairwise fun earlier later => earlier < later + W
  base_le_acks : ∀ r ∈ acks, base ≤ r
  acks_le : ∀ r ∈ acks, r ≤ expected
  acks_sorted : acks.Pairwise (· ≤ ·)

namespace Window

variable {W base next expected : ℕ} {data acks : List ℕ}

theorem init (W : ℕ) : Window W 0 0 0 [] [] := by
  constructor <;> simp

/-! ## Moves of the sender -/

/-- Numbering one more frame, when the window has room. -/
theorem advance (h : Window W base next expected data acks) (hroom : next < base + W) :
    Window W base (next + 1) expected data acks where
  base_le := h.base_le
  expected_le := h.expected_le.trans (Nat.le_succ _)
  next_le := hroom
  data_lt := fun s hs => (h.data_lt s hs).trans (Nat.lt_succ_self _)
  expected_le_data := h.expected_le_data
  data_near := h.data_near
  base_le_acks := h.base_le_acks
  acks_le := h.acks_le
  acks_sorted := h.acks_sorted

/-- Sending an unacknowledged frame, for the first time or again. -/
theorem transmit (h : Window W base next expected data acks) {s : ℕ} (hlow : base ≤ s)
    (hhigh : s < next) : Window W base next expected (data ++ [s]) acks where
  base_le := h.base_le
  expected_le := h.expected_le
  next_le := h.next_le
  data_lt := by
    intro t ht
    rcases List.mem_append.mp ht with ht | ht
    · exact h.data_lt t ht
    · rwa [List.mem_singleton.mp ht]
  expected_le_data := by
    intro t ht
    rcases List.mem_append.mp ht with ht | ht
    · exact h.expected_le_data t ht
    · rw [List.mem_singleton.mp ht]
      have := h.expected_le
      have := h.next_le
      omega
  data_near := by
    refine List.pairwise_append.mpr ⟨h.data_near, List.pairwise_singleton _ _, ?_⟩
    intro t ht u hu
    rw [List.mem_singleton.mp hu]
    have := h.data_lt t ht
    have := h.next_le
    omega
  base_le_acks := h.base_le_acks
  acks_le := h.acks_le
  acks_sorted := h.acks_sorted

/-- Believing the oldest acknowledgement in flight, which `lose` then takes off
the link. -/
theorem acknowledge {r : ℕ} (h : Window W base next expected data (r :: acks)) :
    Window W r next expected data (r :: acks) where
  base_le := h.acks_le r (List.mem_cons_self ..)
  expected_le := h.expected_le
  next_le := by
    have := h.base_le_acks r (List.mem_cons_self ..)
    have := h.next_le
    omega
  data_lt := h.data_lt
  expected_le_data := h.expected_le_data
  data_near := h.data_near
  base_le_acks := by
    intro t ht
    rcases List.mem_cons.mp ht with rfl | ht
    · exact le_rfl
    · exact (List.pairwise_cons.mp h.acks_sorted).1 t ht
  acks_le := h.acks_le
  acks_sorted := h.acks_sorted

/-! ## Moves of the receiver -/

/-- Taking the frame that is expected, which `lose` then takes off the link. -/
theorem accept (h : Window W base next expected (expected :: data) acks) (hW : 0 < W) :
    Window W base next (expected + 1) (expected :: data) acks where
  base_le := h.base_le.trans (Nat.le_succ _)
  expected_le := h.data_lt expected (List.mem_cons_self ..)
  next_le := h.next_le
  data_lt := h.data_lt
  expected_le_data := by
    intro s hs
    rcases List.mem_cons.mp hs with rfl | hs
    · omega
    · exact (List.pairwise_cons.mp h.data_near).1 s hs
  data_near := h.data_near
  base_le_acks := h.base_le_acks
  acks_le := fun r hr => (h.acks_le r hr).trans (Nat.le_succ _)
  acks_sorted := h.acks_sorted

/-- Saying how far the receiver got. -/
theorem report (h : Window W base next expected data acks) :
    Window W base next expected data (acks ++ [expected]) where
  base_le := h.base_le
  expected_le := h.expected_le
  next_le := h.next_le
  data_lt := h.data_lt
  expected_le_data := h.expected_le_data
  data_near := h.data_near
  base_le_acks := by
    intro r hr
    rcases List.mem_append.mp hr with hr | hr
    · exact h.base_le_acks r hr
    · rw [List.mem_singleton.mp hr]
      exact h.base_le
  acks_le := by
    intro r hr
    rcases List.mem_append.mp hr with hr | hr
    · exact h.acks_le r hr
    · exact (List.mem_singleton.mp hr).le
  acks_sorted := by
    refine List.pairwise_append.mpr ⟨h.acks_sorted, List.pairwise_singleton _ _, ?_⟩
    intro r hr t ht
    rw [List.mem_singleton.mp ht]
    exact h.acks_le r hr

/-! ## Losses -/

theorem lose {data' acks' : List ℕ} (h : Window W base next expected data acks)
    (hdata : data'.Sublist data) (hacks : acks'.Sublist acks) :
    Window W base next expected data' acks' where
  base_le := h.base_le
  expected_le := h.expected_le
  next_le := h.next_le
  data_lt := fun s hs => h.data_lt s (hdata.subset hs)
  expected_le_data := fun s hs => h.expected_le_data s (hdata.subset hs)
  data_near := h.data_near.sublist hdata
  base_le_acks := fun r hr => h.base_le_acks r (hacks.subset hr)
  acks_le := fun r hr => h.acks_le r (hacks.subset hr)
  acks_sorted := h.acks_sorted.sublist hacks

/-! ## Numbers modulo `M` -/

/-- **A frame in flight is told from every other by its number modulo `M`.** -/
theorem eq_of_mod_eq {M s : ℕ} (h : Window W base next expected data acks) (hM : 2 * W ≤ M)
    (hs : s ∈ data) (hmod : s % M = expected % M) : s = expected := by
  have hlow := h.expected_le_data s hs
  have hhigh := h.data_lt s hs
  have hnext := h.next_le
  have hbase := h.base_le
  rcases le_total s expected with hle | hle
  · have hdvd : M ∣ expected - s := (Nat.modEq_iff_dvd' hle).mp hmod
    have := Nat.eq_zero_of_dvd_of_lt hdvd (by omega)
    omega
  · have hdvd : M ∣ s - expected := (Nat.modEq_iff_dvd' hle).mp hmod.symm
    have := Nat.eq_zero_of_dvd_of_lt hdvd (by omega)
    omega

end Window

/-- The distance from `a` up to `b`, computed from the two numbers modulo `M`.
-/
theorem distance_mod {M a b : ℕ} (hle : a ≤ b) (hlt : b - a < M) :
    (b % M + M - a % M) % M = b - a := by
  have hM : 0 < M := by omega
  have ha := Nat.mod_lt a hM
  have hb : b % M = (a % M + (b - a)) % M := by
    rw [Nat.mod_add_mod, Nat.add_sub_cancel' hle]
  rcases lt_or_ge (a % M + (b - a)) M with h | h
  · rw [hb, Nat.mod_eq_of_lt h,
      show a % M + (b - a) + M - a % M = (b - a) + M by omega, Nat.add_mod_right,
      Nat.mod_eq_of_lt hlt]
  · have hwrap : (a % M + (b - a)) % M = a % M + (b - a) - M := by
      rw [Nat.mod_eq_sub_mod h, Nat.mod_eq_of_lt (by omega)]
    rw [hb, hwrap, show a % M + (b - a) - M + M - a % M = b - a by omega,
      Nat.mod_eq_of_lt hlt]

end Castaway
