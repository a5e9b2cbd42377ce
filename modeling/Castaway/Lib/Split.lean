import Mathlib.Data.List.Basic

/-!
# Cutting a list up, and putting the pieces among others

`chunksOf size xs` is `xs` in pieces of `size`, the last of which may be
shorter.  `Merges xs ys zs` says that `zs` is `xs` with the elements of `ys`
anywhere between, before and after its own, each list in its order:
`Merges.filter_eq` gets `ys` back by a test that holds of its elements and of
none of the others.
-/

namespace Castaway

open List

universe u

variable {α : Type u}

/-! ## Chunks -/

/-- The first chunks, `fuel` of them at most. -/
def chunksAmong (size : ℕ) : ℕ → List α → List (List α)
  | fuel + 1, x :: xs => (x :: xs).take size :: chunksAmong size fuel ((x :: xs).drop size)
  | _, _ => []

/-- There are no more chunks than elements. -/
def chunksOf (size : ℕ) (xs : List α) : List (List α) := chunksAmong size xs.length xs

theorem flatten_chunksAmong {size : ℕ} (hsize : 0 < size) {fuel : ℕ} {xs : List α}
    (hfuel : xs.length ≤ fuel) : (chunksAmong size fuel xs).flatten = xs := by
  induction fuel generalizing xs with
  | zero =>
    obtain rfl : xs = [] := eq_nil_of_length_eq_zero (Nat.le_zero.mp hfuel)
    rfl
  | succ fuel ih =>
    cases xs with
    | nil => rfl
    | cons x xs =>
      have hrest : ((x :: xs).drop size).length ≤ fuel := by
        simp only [length_drop, length_cons] at hfuel ⊢
        omega
      rw [chunksAmong, flatten_cons, ih hrest, take_append_drop]

theorem flatten_chunksOf {size : ℕ} (hsize : 0 < size) (xs : List α) :
    (chunksOf size xs).flatten = xs :=
  flatten_chunksAmong hsize (Nat.le_refl _)

theorem length_le_of_mem_chunksAmong {size fuel : ℕ} {xs chunk : List α}
    (h : chunk ∈ chunksAmong size fuel xs) : chunk.length ≤ size := by
  induction fuel generalizing xs with
  | zero => cases h
  | succ fuel ih =>
    cases xs with
    | nil => cases h
    | cons x xs =>
      rw [chunksAmong, mem_cons] at h
      rcases h with rfl | h
      · rw [length_take]
        exact Nat.min_le_left _ _
      · exact ih h

theorem length_le_of_mem_chunksOf {size : ℕ} {xs chunk : List α} (h : chunk ∈ chunksOf size xs) :
    chunk.length ≤ size :=
  length_le_of_mem_chunksAmong h

/-! ## Merging -/

/-- `Merges xs ys zs`: `zs` is `xs` with `ys` put among it. -/
inductive Merges : List α → List α → List α → Prop
  | nil : Merges [] [] []
  | left (x : α) {xs ys zs : List α} : Merges xs ys zs → Merges (x :: xs) ys (x :: zs)
  | right (y : α) {xs ys zs : List α} : Merges xs ys zs → Merges xs (y :: ys) (y :: zs)

namespace Merges

variable {xs ys zs : List α}

theorem forall_mem {P : α → Prop} (h : Merges xs ys zs) (hxs : ∀ x ∈ xs, P x)
    (hys : ∀ y ∈ ys, P y) : ∀ z ∈ zs, P z := by
  induction h with
  | nil => exact hxs
  | left x h ih =>
    rw [forall_mem_cons] at hxs ⊢
    exact ⟨hxs.1, ih hxs.2 hys⟩
  | right y h ih =>
    rw [forall_mem_cons] at hys ⊢
    exact ⟨hys.1, ih hxs hys.2⟩

theorem filter_eq {p : α → Bool} (h : Merges xs ys zs) (hxs : ∀ x ∈ xs, p x = false)
    (hys : ∀ y ∈ ys, p y) : zs.filter p = ys := by
  induction h with
  | nil => rfl
  | left x h ih =>
    rw [forall_mem_cons] at hxs
    rw [filter_cons_of_neg (by simp [hxs.1]), ih hxs.2 hys]
  | right y h ih =>
    rw [forall_mem_cons] at hys
    rw [filter_cons_of_pos hys.1, ih hxs hys.2]

theorem of_map {β : Type u} {f : α → β} {zs : List β} (h : Merges (xs.map f) (ys.map f) zs) :
    ∃ whole, Merges xs ys whole ∧ zs = whole.map f := by
  generalize hxs : xs.map f = mapped, hys : ys.map f = mapped' at h
  induction h generalizing xs ys with
  | nil =>
    obtain rfl := map_eq_nil_iff.mp hxs
    obtain rfl := map_eq_nil_iff.mp hys
    exact ⟨[], .nil, rfl⟩
  | left x h ih =>
    obtain ⟨first, rest, rfl, rfl, hrest⟩ := map_eq_cons_iff.mp hxs
    obtain ⟨whole, hwhole, rfl⟩ := ih hrest hys
    exact ⟨first :: whole, .left _ hwhole, rfl⟩
  | right y h ih =>
    obtain ⟨first, rest, rfl, rfl, hrest⟩ := map_eq_cons_iff.mp hys
    obtain ⟨whole, hwhole, rfl⟩ := ih hxs hrest
    exact ⟨first :: whole, .right _ hwhole, rfl⟩

end Merges

end Castaway
