import Mathlib.Data.List.Basic

/-!
# Registers that tell bursts apart

A register takes symbols one by one.  It is `Lossless` when no symbol takes two
states to one, so that two runs that differ go on differing as long as they read
the same, and it `Separates` windows of a length when no state takes two of them
to one.  Two inputs that differ only inside such a window then leave different
states behind (`Separates.ne_of_burst`), whatever stands before and after it.
-/

namespace Castaway

open List

universe u v

variable {σ : Type u} {β : Type v} {feed : σ → β → σ}

def Lossless (feed : σ → β → σ) : Prop := ∀ b s t, feed s b = feed t b → s = t

/-- No state takes two windows of `n` symbols to one. -/
def Separates (feed : σ → β → σ) (n : ℕ) : Prop :=
  ∀ s (xs ys : List β), xs.length = n → ys.length = n → xs.foldl feed s = ys.foldl feed s → xs = ys

theorem Lossless.foldl (h : Lossless feed) {xs : List β} {s t : σ}
    (heq : xs.foldl feed s = xs.foldl feed t) : s = t := by
  induction xs generalizing s t with
  | nil => exact heq
  | cons b xs ih => exact h b s t (ih heq)

/-- A shorter window is separated too: fill both up with the same symbols. -/
theorem Separates.of_le {m n : ℕ} (h : Separates feed n) (hle : m ≤ n) : Separates feed m := by
  intro s xs ys hxs hys heq
  cases xs with
  | nil =>
    rw [length_nil] at hxs
    exact (length_eq_zero_iff.mp (hys.trans hxs.symm)).symm
  | cons b xs =>
    have hfilled := h s (b :: xs ++ .replicate (n - m) b) (ys ++ .replicate (n - m) b)
      (by rw [length_append, hxs, length_replicate]; omega)
      (by rw [length_append, hys, length_replicate]; omega)
      (by rw [foldl_append, foldl_append, heq])
    exact append_cancel_right hfilled

/-- **A difference inside one window is never lost.** -/
theorem Separates.ne_of_burst {n : ℕ} (h : Separates feed n) (hlossless : Lossless feed)
    (start : ℕ) {xs ys : List β} (hlength : xs.length = ys.length) (hne : xs ≠ ys)
    (hsame : ∀ i, i < start ∨ start + n ≤ i → xs[i]? = ys[i]?) (s : σ) :
    xs.foldl feed s ≠ ys.foldl feed s := by
  intro heq
  have hsplit : ∀ zs : List β,
      zs = zs.take start ++ ((zs.drop start).take n ++ zs.drop (start + n)) := by
    intro zs
    rw [← drop_drop, take_append_drop, take_append_drop]
  have hbefore : xs.take start = ys.take start := by
    refine ext_getElem? fun i => ?_
    rw [getElem?_take, getElem?_take]
    split
    · rename_i hi
      exact hsame i (Or.inl hi)
    · rfl
  have hafter : xs.drop (start + n) = ys.drop (start + n) := by
    refine ext_getElem? fun i => ?_
    rw [getElem?_drop, getElem?_drop]
    exact hsame _ (Or.inr (Nat.le_add_right _ _))
  have hwindow : (xs.drop start).take n = (ys.drop start).take n := by
    rw [hsplit xs, hsplit ys, hbefore, hafter, foldl_append, foldl_append,
      foldl_append, foldl_append] at heq
    have hwidth : ((ys.drop start).take n).length = ((xs.drop start).take n).length := by
      rw [length_take, length_take, length_drop, length_drop, hlength]
    refine h.of_le ?_ _ _ _ rfl hwidth (hlossless.foldl heq)
    rw [length_take]
    exact Nat.min_le_left _ _
  refine hne ?_
  rw [hsplit xs, hsplit ys, hbefore, hafter, hwindow]

end Castaway
