import Mathlib.Data.List.Basic
import Mathlib.Data.List.Induction

/-!
# Runs of a state machine

A machine is a step function `σ → α → σ`, and a run folds it over a list of
inputs.  `HeldSince` dates a property of the state: it names the input that
brought the property about and says that it has held ever since.  A run that
ends with the property and did not begin with it has such an input
(`heldSince_began`, `HeldSince.concat`).  Where only some inputs can bring the
property about, one of them occurs in the run (`exists_source`).

`Along` asks something of every input in the state it meets, and `after` runs a
machine along a schedule that never ends.
-/

namespace Castaway

open List

universe u v

variable {σ : Type u} {α : Type v} {step : σ → α → σ} {P : σ → Prop} {start : σ}
  {before since : List α} {began : α}

/-- What every step leaves alone, a run leaves alone. -/
theorem foldl_keeps {τ : Type*} (f : σ → τ) (hstep : ∀ s x, f (step s x) = f s) (xs : List α)
    (s : σ) : f (xs.foldl step s) = f s := by
  induction xs generalizing s with
  | nil => rfl
  | cons x xs ih => rw [foldl_cons, ih, hstep]

/-- A property the start does not have comes from an input that can bring it
about. -/
theorem exists_source (P : σ → Prop) (brings : α → Prop) (hstart : ¬ P start)
    (hstep : ∀ s x, P (step s x) → brings x ∨ P s) {xs : List α} (hend : P (xs.foldl step start)) :
    ∃ x ∈ xs, brings x := by
  induction xs using List.reverseRecOn with
  | nil => exact absurd hend hstart
  | append_singleton xs x ih =>
    rw [foldl_concat] at hend
    rcases hstep _ x hend with hx | hbefore
    · exact ⟨x, by simp, hx⟩
    · obtain ⟨y, hy, hbrings⟩ := ih hbefore
      exact ⟨y, mem_append_left _ hy, hbrings⟩

/-- `P` fails after `before`, and holds after `began` and after every input that
follows it. -/
structure HeldSince (step : σ → α → σ) (P : σ → Prop) (start : σ) (before : List α) (began : α)
    (since : List α) : Prop where
  failed : ¬ P (before.foldl step start)
  held : ∀ k ≤ since.length, P ((before ++ began :: since.take k).foldl step start)

theorem heldSince_began (hbefore : ¬ P (before.foldl step start))
    (hafter : P (step (before.foldl step start) began)) :
    HeldSince step P start before began [] where
  failed := hbefore
  held := fun k hk => by simpa using hafter

/-- The property survives one more input. -/
theorem HeldSince.concat (h : HeldSince step P start before began since) {next : α}
    (hnext : P (step ((before ++ began :: since).foldl step start) next)) :
    HeldSince step P start before began (since ++ [next]) where
  failed := h.failed
  held := fun k hk => by
    rcases Nat.lt_or_ge since.length k with hlt | hle
    · have htake : (since ++ [next]).take k = since ++ [next] :=
        by
        apply take_of_length_le
        simp only [length_append, length_singleton]
        omega
      have hsplit :
          before ++ began :: (since ++ [next]) = (before ++ began :: since) ++ [next] := by
        simp
      rw [htake, hsplit, foldl_concat]
      exact hnext
    · rw [take_append_of_le_length hle]
      exact h.held k hle

/-! ## What every input meets -/

/-- `Q` holds of every input of a run, in the state before it. -/
def Along (step : σ → α → σ) (Q : σ → α → Prop) : List α → σ → Prop
  | [], _ => True
  | x :: xs, s => Q s x ∧ Along step Q xs (step s x)

instance decidableAlong {Q : σ → α → Prop} [∀ s x, Decidable (Q s x)] :
    ∀ xs s, Decidable (Along step Q xs s)
  | [], _ => isTrue trivial
  | x :: xs, s => @instDecidableAnd _ _ _ (decidableAlong xs (step s x))

variable {Q R : σ → α → Prop} {xs ys : List α} {s : σ}

theorem along_append :
    Along step Q (xs ++ ys) s ↔ Along step Q xs s ∧ Along step Q ys (xs.foldl step s) := by
  induction xs generalizing s with
  | nil => simp [Along]
  | cons x xs ih => rw [cons_append, Along, Along, ih, foldl_cons, and_assoc]

theorem Along.getElem (h : Along step Q xs s) {k : ℕ} (hk : k < xs.length) :
    Q ((xs.take k).foldl step s) xs[k] := by
  induction xs generalizing s k with
  | nil => exact absurd hk (Nat.not_lt_zero k)
  | cons x xs ih =>
    cases k with
    | zero => exact h.1
    | succ k => exact ih h.2 (Nat.lt_of_succ_lt_succ hk)

/-- A condition on every input of a run, input by input. -/
theorem along_iff_forall_split : Along step Q xs s ↔ ∀ before x after, xs = before ++ x :: after →
    Q (before.foldl step s) x := by
  constructor
  · rintro h before x after rfl
    exact (along_append.mp h).2.1
  · intro h
    induction xs generalizing s with
    | nil => trivial
    | cons x xs ih =>
      refine ⟨h [] x xs rfl, ih fun before x' after hsplit => ?_⟩
      exact h (x :: before) x' after (congrArg (x :: ·) hsplit)

/-- An invariant that every input keeps may be used at every input. -/
theorem Along.imp_of_invariant (I : σ → Prop) (hI : I s) (h : Along step Q xs s)
    (hstep : ∀ s x, I s → Q s x → R s x ∧ I (step s x)) : Along step R xs s := by
  induction xs generalizing s with
  | nil => trivial
  | cons x xs ih =>
    obtain ⟨hx, hnext⟩ := hstep s x hI h.1
    exact ⟨hx, ih hnext h.2⟩

theorem along_and :
    Along step (fun s x => Q s x ∧ R s x) xs s ↔ Along step Q xs s ∧ Along step R xs s := by
  induction xs generalizing s with
  | nil => exact ⟨fun _ => ⟨trivial, trivial⟩, fun _ => trivial⟩
  | cons x xs ih =>
    rw [Along, Along, Along, ih]
    exact and_and_and_comm

/-- Two things asked of every input agree, if an invariant that the one keeps
makes them. -/
theorem along_congr_of_invariant (I : σ → Prop) (hI : I s)
    (hstep : ∀ s x, I s → (Q s x ↔ R s x) ∧ (R s x → I (step s x))) :
    Along step Q xs s ↔ Along step R xs s := by
  constructor
  · intro h
    refine h.imp_of_invariant I hI fun s x hs hQ => ?_
    have hR := (hstep s x hs).1.mp hQ
    exact ⟨hR, (hstep s x hs).2 hR⟩
  · intro h
    exact h.imp_of_invariant I hI fun s x hs hR => ⟨(hstep s x hs).1.mpr hR, (hstep s x hs).2 hR⟩

/-- An invariant that every input keeps holds at the end. -/
theorem Along.foldl (I : σ → Prop) (hI : I s) (h : Along step Q xs s)
    (hstep : ∀ s x, I s → Q s x → I (step s x)) : I (xs.foldl step s) := by
  induction xs generalizing s with
  | nil => exact hI
  | cons x xs ih => exact ih (hstep s x hI h.1) h.2

/-- Two machines that agree on every input of a run end in the same state. -/
theorem Along.foldl_congr {step' : σ → α → σ} (h : Along step Q xs s)
    (hstep : ∀ s x, Q s x → step s x = step' s x) : xs.foldl step s = xs.foldl step' s := by
  induction xs generalizing s with
  | nil => rfl
  | cons x xs ih =>
    rw [foldl_cons, foldl_cons, ← hstep s x h.1]
    exact ih h.2

/-- A property of every state of a run, as one of the first state and of what
every input leaves. -/
theorem forall_take_iff (P : σ → Prop) :
    (∀ k ≤ xs.length, P ((xs.take k).foldl step s)) ↔
      P s ∧ Along step (fun s x => P (step s x)) xs s := by
  induction xs generalizing s with
  | nil => exact ⟨fun h => ⟨h 0 (Nat.le_refl 0), trivial⟩, fun h k _ => by simpa using h.1⟩
  | cons x xs ih =>
    constructor
    · intro h
      have hrest := ih.mp fun k hk => h (k + 1) (Nat.succ_le_succ hk)
      exact ⟨h 0 (Nat.zero_le _), hrest.1, hrest.2⟩
    · rintro ⟨hs, hnext, hrest⟩ k hk
      cases k with
      | zero => exact hs
      | succ k => exact ih.mpr ⟨hnext, hrest⟩ k (Nat.le_of_succ_le_succ hk)

/-- A property that an input keeps exactly under a condition holds all along a
run exactly when every input meets the condition. -/
theorem along_iff_always (P : σ → Prop) (hs : P s) (hstep : ∀ s x, P s → (P (step s x) ↔ Q s x)) :
    (∀ k ≤ xs.length, P ((xs.take k).foldl step s)) ↔ Along step Q xs s := by
  induction xs generalizing s with
  | nil => exact ⟨fun _ => trivial, fun _ k _ => by simpa using hs⟩
  | cons x xs ih =>
    constructor
    · intro h
      have hnext : P (step s x) := h 1 (Nat.succ_le_succ (Nat.zero_le _))
      refine ⟨(hstep s x hs).mp hnext, (ih hnext).mp fun k hk => ?_⟩
      exact h (k + 1) (Nat.succ_le_succ hk)
    · rintro ⟨hx, hrest⟩ k hk
      have hnext : P (step s x) := (hstep s x hs).mpr hx
      cases k with
      | zero => exact hs
      | succ k => exact (ih hnext).mpr hrest k (Nat.le_of_succ_le_succ hk)

/-- The same in a run whose inputs all meet `R`, with an invariant `I` to help,
which the inputs keep that meet the condition. -/
theorem along_iff_under (I P : σ → Prop) (hI : I s) (hs : P s) (hR : Along step R xs s)
    (hstep : ∀ s x, I s → P s → R s x → (P (step s x) ↔ Q s x) ∧ (Q s x → I (step s x))) :
    (∀ k ≤ xs.length, P ((xs.take k).foldl step s)) ↔ Along step Q xs s := by
  induction xs generalizing s with
  | nil => exact ⟨fun _ => trivial, fun _ k _ => by simpa using hs⟩
  | cons x xs ih =>
    obtain ⟨hiff, hI'⟩ := hstep s x hI hs hR.1
    constructor
    · intro h
      have hnext : P (step s x) := h 1 (Nat.succ_le_succ (Nat.zero_le _))
      have hx : Q s x := hiff.mp hnext
      refine ⟨hx, (ih (hI' hx) hnext hR.2).mp fun k hk => ?_⟩
      exact h (k + 1) (Nat.succ_le_succ hk)
    · rintro ⟨hx, hrest⟩ k hk
      have hnext : P (step s x) := hiff.mpr hx
      cases k with
      | zero => exact hs
      | succ k => exact (ih (hI' hx) hnext hR.2).mpr hrest k (Nat.le_of_succ_le_succ hk)

theorem along_true : Along step (fun _ _ => True) xs s := by
  induction xs generalizing s with
  | nil => trivial
  | cons x xs ih => exact ⟨trivial, ih⟩

theorem take_succ_foldl {k : ℕ} (hk : k < xs.length) :
    (xs.take (k + 1)).foldl step s = step ((xs.take k).foldl step s) xs[k] := by
  rw [take_succ_eq_append_getElem hk, foldl_concat]

/-! ## Runs without an end -/

/-- The state after `n` inputs of a schedule. -/
def after (step : σ → α → σ) (start : σ) (schedule : ℕ → α) : ℕ → σ
  | 0 => start
  | n + 1 => step (after step start schedule n) (schedule n)

/-- What relates a state to the next one relates it to every later one. -/
theorem after_mono {R : σ → σ → Prop} (hrefl : ∀ s, R s s)
    (htrans : ∀ s t u, R s t → R t u → R s u) {schedule : ℕ → α}
    (hstep : ∀ n, R (after step start schedule n) (after step start schedule (n + 1)))
    {m n : ℕ} (hmn : m ≤ n) : R (after step start schedule m) (after step start schedule n) := by
  induction hmn with
  | refl => exact hrefl _
  | step _ ih => exact htrans _ _ _ ih (hstep _)

/-- A schedule that lowers a rank, sooner or later, wherever `P` fails brings
`P` about. -/
theorem exists_after_of_rank {schedule : ℕ → α} (rank : σ → ℕ)
    (hlower : ∀ n, ¬ P (after step start schedule n) →
      ∃ m, P (after step start schedule m) ∨
        rank (after step start schedule m) < rank (after step start schedule n)) (n : ℕ) :
    ∃ m, P (after step start schedule m) := by
  induction hrank : rank (after step start schedule n) using Nat.strongRecOn
    generalizing n with
  | _ r ih =>
    by_cases hnow : P (after step start schedule n)
    · exact ⟨n, hnow⟩
    · obtain ⟨m, hm | hless⟩ := hlower n hnow
      · exact ⟨m, hm⟩
      · exact ih _ (hrank ▸ hless) m rfl

end Castaway
