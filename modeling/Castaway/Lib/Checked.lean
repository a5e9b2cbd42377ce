import Castaway.Lib.Result
import Mathlib.Algebra.Order.Ring.Nat

/-!
# Arithmetic that notices when 64 bits do not hold it

Operands are natural numbers.  `checkedAdd`, `checkedSub` and `checkedMul` give
the exact result, or say that it is not a 64-bit number, which ends the
computation they stand in.
-/

namespace Castaway

/-- A result outside of 64 bits. -/
inductive Overflow where
  | overflow
  deriving DecidableEq, Repr

variable {a b c : ℕ}

/-- The number, if 64 bits hold it. -/
def checked (n : ℕ) : Except Overflow ℕ := if n < 2 ^ 64 then .ok n else .error .overflow

def checkedAdd (a b : ℕ) : Except Overflow ℕ := checked (a + b)

def checkedMul (a b : ℕ) : Except Overflow ℕ := checked (a * b)

def checkedSub (a b : ℕ) : Except Overflow ℕ := if b ≤ a then .ok (a - b) else .error .overflow

theorem checked_eq_ok : checked a = .ok b ↔ a = b ∧ b < 2 ^ 64 := by
  unfold checked
  constructor
  · intro h
    split at h
    · next hlt =>
        cases h
        exact ⟨rfl, hlt⟩
    · cases h
  · rintro ⟨rfl, hlt⟩
    exact if_pos hlt

theorem checkedAdd_eq_ok : checkedAdd a b = .ok c ↔ a + b = c ∧ c < 2 ^ 64 := checked_eq_ok

theorem checkedMul_eq_ok : checkedMul a b = .ok c ↔ a * b = c ∧ c < 2 ^ 64 := checked_eq_ok

theorem checkedSub_eq_ok : checkedSub a b = .ok c ↔ c + b = a := by
  unfold checkedSub
  constructor
  · intro h
    split at h
    · cases h
      omega
    · cases h
  · rintro rfl
    rw [if_pos (Nat.le_add_left b c), Nat.add_sub_cancel]

theorem checkedAdd_of_lt (h : a + b < 2 ^ 64) : checkedAdd a b = .ok (a + b) := if_pos h

theorem checkedAdd_of_le (h : 2 ^ 64 ≤ a + b) : checkedAdd a b = .error .overflow :=
  if_neg (Nat.not_lt.mpr h)

theorem checkedSub_of_le (h : b ≤ a) : checkedSub a b = .ok (a - b) := if_pos h

end Castaway
