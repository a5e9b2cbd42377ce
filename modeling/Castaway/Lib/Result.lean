import Mathlib.Tactic.Common

/-!
# Computations that may fail

Taking apart a chain of `Except` computations that succeeded: `bind_eq_ok` peels
off the first step.

A computation that also changes a state, and leaves it changed when it fails, is
a pair of the state and the result.  `andThen` chains two of them.
-/

namespace Castaway

universe u v

variable {ε : Type u} {α β : Type v}

theorem bind_eq_ok {x : Except ε α} {f : α → Except ε β} {b : β} :
    (x >>= f) = .ok b ↔ ∃ a, x = .ok a ∧ f a = .ok b := by
  cases x with
  | error e =>
    constructor
    · intro h
      cases h
    · rintro ⟨a, h, -⟩
      cases h
  | ok a =>
    constructor
    · exact fun h => ⟨a, rfl, h⟩
    · rintro ⟨a', h, hf⟩
      cases h
      exact hf

@[simp] theorem ok_bind (a : α) (f : α → Except ε β) : (Except.ok a >>= f) = f a := rfl

@[simp] theorem error_bind (e : ε) (f : α → Except ε β) : (Except.error e >>= f) = .error e := rfl

/-- What both branches of a decision give, its result gives. -/
theorem of_ite_eq {P : Prop} {c : Prop} [Decidable c] {x y z : α} (h : (if c then x else y) = z)
    (hthen : x = z → P) (helse : y = z → P) : P := by
  split at h
  · exact hthen h
  · exact helse h

/-! ## With a state that outlives the failure -/

variable {σ : Type u} {ε : Type u} {α β : Type u}

/-- Go on with the value, or return the failure.  The state keeps what was done.
-/
def andThen (step : σ × Except ε α) (next : σ → α → σ × Except ε β) : σ × Except ε β :=
  match step with
  | (s, .ok a) => next s a
  | (s, .error e) => (s, .error e)

@[simp] theorem andThen_ok (s : σ) (a : α) (next : σ → α → σ × Except ε β) :
    andThen (s, .ok a) next = next s a := rfl

end Castaway
