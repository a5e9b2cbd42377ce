import Mathlib.Tactic.Common
import Mathlib.Order.Nat

/-!
# Stages of a lifecycle

Something that comes and goes, and moves from stage to stage while it is there:
`stage k` is the stage at time `k`, or `none` while it is absent.  If no step
goes back (`Forward`), then while it is there it never goes back
(`Forward.le`), and between two entries into one stage it was absent
(`Forward.absent_between`).  A stage it is in was entered (`entered_before`).
-/

namespace Castaway

variable {ι : Type*} {stage : ℕ → Option ι} {n : ℕ}

/-- The stage `ℓ` is entered in step `k`. -/
def EntersAt (stage : ℕ → Option ι) (ℓ : ι) (k : ℕ) : Prop :=
  stage k ≠ some ℓ ∧ stage (k + 1) = some ℓ

theorem entered_before {ℓ : ι} (hstart : stage 0 ≠ some ℓ) {k : ℕ} (hk : stage k = some ℓ) :
    ∃ i < k, EntersAt stage ℓ i ∧ ∀ j, i < j → j ≤ k → stage j = some ℓ := by
  induction k with
  | zero => exact absurd hk hstart
  | succ k ih =>
    by_cases hbefore : stage k = some ℓ
    · obtain ⟨i, hik, henters, hkept⟩ := ih hbefore
      refine ⟨i, by omega, henters, fun j hij hjk => ?_⟩
      rcases Nat.le_succ_iff.mp hjk with hjk | rfl
      · exact hkept j hij hjk
      · exact hk
    · refine ⟨k, Nat.lt_succ_self k, ⟨hbefore, hk⟩, fun j hkj hjk => ?_⟩
      obtain rfl : j = k + 1 := by omega
      exact hk

variable [PartialOrder ι]

/-- No step up to time `n` goes back. -/
def Forward (stage : ℕ → Option ι) (n : ℕ) : Prop :=
  ∀ k < n, ∀ a b, stage k = some a → stage (k + 1) = some b → a ≤ b

theorem Forward.le (h : Forward stage n) {i j : ℕ} (hij : i ≤ j) (hj : j ≤ n)
    (hpresent : ∀ k, i ≤ k → k ≤ j → stage k ≠ none) {a b : ι} (ha : stage i = some a)
    (hb : stage j = some b) : a ≤ b := by
  induction j, hij using Nat.le_induction generalizing b with
  | base => exact (Option.some.inj (ha.symm.trans hb)).le
  | succ j hij ih =>
    obtain ⟨c, hc⟩ := Option.ne_none_iff_exists'.mp (hpresent j hij (Nat.le_succ j))
    calc a ≤ c := ih (by omega) (fun k hik hkj => hpresent k hik (by omega)) hc
      _ ≤ b := h j hj c b hc hb

/-- A stage is entered a second time only after an absence. -/
theorem Forward.absent_between (h : Forward stage n) {ℓ : ι} {i j : ℕ} (hij : i < j) (hj : j < n)
    (hi : EntersAt stage ℓ i) (hagain : EntersAt stage ℓ j) :
    ∃ k, i < k ∧ k ≤ j ∧ stage k = none := by
  by_contra habsent
  push Not at habsent
  have hpresent (k : ℕ) (hik : i + 1 ≤ k) (hkj : k ≤ j) : stage k ≠ none := habsent k hik hkj
  obtain ⟨c, hc⟩ := Option.ne_none_iff_exists'.mp (hpresent j hij (Nat.le_refl j))
  have hafter : ℓ ≤ c := h.le hij hj.le hpresent hi.2 hc
  have hbefore : c ≤ ℓ := h j hj c ℓ hc hagain.2
  exact hagain.1 (hc.trans (congrArg some (le_antisymm hbefore hafter)))

end Castaway
