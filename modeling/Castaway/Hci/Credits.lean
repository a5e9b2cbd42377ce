import Castaway.Hci.Flow

/-!
# The credits as they are booked

`AclCredits` gives every link a number.  The source keeps a map of the links
that have something outstanding, subtracts what it takes to be there, and counts
in sixteen bits: `AclBooks` is that, with every sum and difference checked.  An
operation that would leave the sixteen bits has no result.

## Strategy

The books refine the credits (`credits_claim` and the three that follow it).
That they balance is carried by `AclRun.Sound`, and it is what keeps every
subtraction and addition within its bounds: the operations always have a result,
whatever a controller reports.
-/

namespace Castaway.Hci

open Function

/-! ## Sixteen bits -/

def checkedSub (a b : ℕ) : Option ℕ := if b ≤ a then some (a - b) else none

/-- Add, unless it does not fit sixteen bits. -/
def checkedAdd (a b : ℕ) : Option ℕ := if a + b ≤ 65535 then some (a + b) else none

theorem checkedSub_of_le {a b : ℕ} (h : b ≤ a) : checkedSub a b = some (a - b) := if_pos h

theorem checkedAdd_of_le {a b : ℕ} (h : a + b ≤ 65535) : checkedAdd a b = some (a + b) := if_pos h

/-! ## The books -/

/-- The pool of a controller's buffers, with a map of what is outstanding. -/
structure AclBooks where
  capacity : ℕ
  /-- The links that have fragments outstanding, and how many. -/
  outstanding : ConnectionHandle → Option ℕ
  total : ℕ

namespace AclBooks

def new (capacity : UInt16) : AclBooks := ⟨max capacity.toNat 1, fun _ => none, 0⟩

/-- Resize the pool.  It may shrink below what is outstanding. -/
def setCapacity (books : AclBooks) (capacity : UInt16) : AclBooks :=
  { books with capacity := max capacity.toNat 1 }

/-- How many fragments may be sent now. -/
def available (books : AclBooks) : ℕ := books.capacity - books.total

/-- Take one credit for a fragment, or say that none is free. -/
def claim (books : AclBooks) (handle : ConnectionHandle) : Option (AclBooks × Bool) :=
  if books.available = 0 then some (books, false)
  else do
    let total ← checkedAdd books.total 1
    let entry ← checkedAdd ((books.outstanding handle).getD 0) 1
    some ({ books with
      total, outstanding := update books.outstanding handle (some entry) }, true)

/-- Return the credits of fragments that were reported complete, no more than
there are.  A link with nothing left goes out of the map. -/
def complete (books : AclBooks) (handle : ConnectionHandle) (count : UInt16) :
    Option (AclBooks × ℕ) :=
  match books.outstanding handle with
  | none => some (books, 0)
  | some entry => do
      let released := min count.toNat entry
      let left ← checkedSub entry released
      let total ← checkedSub books.total released
      some ({ books with
        total
        outstanding := update books.outstanding handle
          (if left = 0 then none else some left) }, released)

/-- Take back all that is outstanding on a link that went away. -/
def linkDown (books : AclBooks) (handle : ConnectionHandle) : Option (AclBooks × ℕ) := do
  let reclaimed := (books.outstanding handle).getD 0
  let total ← checkedSub books.total reclaimed
  some ({ books with
    total, outstanding := update books.outstanding handle none }, reclaimed)

/-! ## The credits behind the books -/

/-- The credits that the books stand for: a link that is not listed has none. -/
def credits (books : AclBooks) : AclCredits :=
  ⟨books.capacity, fun handle => (books.outstanding handle).getD 0, books.total⟩

def NoZeros (books : AclBooks) : Prop := ∀ handle, books.outstanding handle ≠ some 0

variable {books : AclBooks} {handle : ConnectionHandle}

theorem NoZeros.update (h : books.NoZeros) {entry : Option ℕ} (hentry : entry ≠ some 0)
    (capacity total : ℕ) :
    NoZeros ⟨capacity, update books.outstanding handle entry, total⟩ := by
  intro other
  dsimp only
  rw [update_apply]
  split
  · exact hentry
  · exact h other

theorem credits_update (entry : Option ℕ) (capacity total : ℕ) :
    credits ⟨capacity, update books.outstanding handle entry, total⟩ =
      ⟨capacity, update books.credits.outstanding handle (entry.getD 0), total⟩ := by
  unfold credits
  congr 1
  funext other
  dsimp only
  rw [update_apply, update_apply]
  split <;> rfl

theorem available_credits (books : AclBooks) : books.credits.available = books.available := rfl

theorem capacity_claim : (books.credits.claim handle).1.capacity = books.capacity := by
  unfold AclCredits.claim
  split <;> rfl

/-- **A claim is a claim of the credits.** -/
theorem credits_claim (hbalanced : books.credits.Balanced) (hcapacity : books.capacity ≤ 65535) :
    ∃ after, books.claim handle = some (after, (books.credits.claim handle).2) ∧
      after.credits = (books.credits.claim handle).1 ∧ (books.NoZeros → after.NoZeros) := by
  unfold claim AclCredits.claim
  rw [available_credits]
  by_cases hnone : books.available = 0
  · rw [if_pos hnone, if_pos hnone]
    exact ⟨books, rfl, rfl, id⟩
  · rw [if_neg hnone, if_neg hnone]
    have hle : (books.outstanding handle).getD 0 ≤ books.total := hbalanced.outstanding_le handle
    have hroom : books.total + 1 ≤ 65535 := by
      rw [available] at hnone
      omega
    have hentry : (books.outstanding handle).getD 0 + 1 ≤ 65535 := by omega
    rw [checkedAdd_of_le hroom, checkedAdd_of_le hentry]
    refine ⟨_, rfl, credits_update _ _ _, fun hzeros => hzeros.update (fun hzero => ?_) _ _⟩
    exact Nat.succ_ne_zero _ (Option.some.inj hzero)

/-- **A completion is a completion of the credits**, over-reported or not. -/
theorem credits_complete (hbalanced : books.credits.Balanced) (count : UInt16) :
    ∃ after, books.complete handle count =
        some (after, (books.credits.complete handle count.toNat).2) ∧
      after.credits = (books.credits.complete handle count.toNat).1 ∧
      (books.NoZeros → after.NoZeros) := by
  have hle : (books.outstanding handle).getD 0 ≤ books.total := hbalanced.outstanding_le handle
  unfold complete AclCredits.complete
  cases hentry : books.outstanding handle with
  | none =>
    have hzero : books.credits.outstanding handle = 0 := by
      change (books.outstanding handle).getD 0 = 0
      rw [hentry]
      rfl
    refine ⟨books, by rw [hzero, Nat.min_zero], ?_, id⟩
    have hsame : update books.credits.outstanding handle 0 =
        books.credits.outstanding := by
      rw [← hzero, update_eq_self]
    rw [hzero, Nat.min_zero]
    dsimp only
    rw [Nat.sub_zero, Nat.sub_zero, hsame]
  | some entry =>
    have houtstanding : books.credits.outstanding handle = entry := by
      change (books.outstanding handle).getD 0 = entry
      rw [hentry]
      rfl
    rw [hentry] at hle
    have hreleased : min count.toNat entry ≤ entry := Nat.min_le_right _ _
    simp only [houtstanding]
    rw [checkedSub_of_le hreleased, checkedSub_of_le (hreleased.trans hle)]
    refine ⟨_, rfl, ?_, fun hzeros => hzeros.update ?_ _ _⟩
    · rw [credits_update]
      by_cases hleft : entry - min count.toNat entry = 0
      · rw [if_pos hleft, hleft]
        rfl
      · rw [if_neg hleft]
        rfl
    · by_cases hleft : entry - min count.toNat entry = 0
      · rw [if_pos hleft]
        exact Option.some_ne_none _ ∘ Eq.symm
      · rw [if_neg hleft]
        exact fun hzero => hleft (Option.some.inj hzero)

/-- **A link that goes down gives back the credits that it has.** -/
theorem credits_linkDown (hbalanced : books.credits.Balanced) :
    ∃ after, books.linkDown handle = some (after, (books.credits.linkDown handle).2) ∧
      after.credits = (books.credits.linkDown handle).1 ∧ (books.NoZeros → after.NoZeros) := by
  have hle : (books.outstanding handle).getD 0 ≤ books.total := hbalanced.outstanding_le handle
  unfold linkDown AclCredits.linkDown
  dsimp only
  rw [checkedSub_of_le hle]
  exact ⟨_, rfl, credits_update _ _ _, fun hzeros => hzeros.update (by simp) _ _⟩

end AclBooks

/-! ## Runs -/

inductive AclCall where
  | claim (handle : ConnectionHandle)
  | complete (handle : ConnectionHandle) (count : UInt16)
  | linkDown (handle : ConnectionHandle)
  | setCapacity (capacity : UInt16)
  deriving DecidableEq

/-- The books, with the claims that succeeded, the credits that were released,
and the largest capacity the pool has had. -/
structure AclRun where
  books : AclBooks
  claimed : ℕ := 0
  released : ℕ := 0
  largest : ℕ := books.capacity

namespace AclRun

def start (capacity : UInt16) : AclRun := { books := .new capacity }

/-- One call, unless one of its sums or differences is out of bounds. -/
def call (run : AclRun) : AclCall → Option AclRun
  | .claim handle => do
      let (books, granted) ← run.books.claim handle
      some { run with books, claimed := run.claimed + if granted then 1 else 0 }
  | .complete handle count => do
      let (books, released) ← run.books.complete handle count
      some { run with books, released := run.released + released }
  | .linkDown handle => do
      let (books, reclaimed) ← run.books.linkDown handle
      some { run with books, released := run.released + reclaimed }
  | .setCapacity capacity =>
    let books := run.books.setCapacity capacity
    some { run with books, largest := max run.largest books.capacity }

def calls (run : AclRun) (calls : List AclCall) : Option AclRun := calls.foldlM call run

/-- What every call keeps. -/
structure Sound (run : AclRun) : Prop where
  balanced : run.books.credits.Balanced
  noZeros : run.books.NoZeros
  booked : run.books.total + run.released = run.claimed
  within : run.books.total ≤ run.largest
  capacity : run.books.capacity ≤ run.largest ∧ run.books.capacity ≤ 65535

theorem sound_start (capacity : UInt16) : (start capacity).Sound where
  balanced := AclCredits.balanced_new capacity.toNat
  noZeros := fun _ h => by cases h
  booked := rfl
  within := Nat.zero_le _
  capacity := by
    refine ⟨le_rfl, ?_⟩
    change max capacity.toNat 1 ≤ 65535
    have := capacity.toNat_lt
    omega

variable {run : AclRun}

/-- A release takes from the total as much as it returns. -/
theorem Sound.release (h : run.Sound) {books : AclBooks} {released : ℕ}
    (hbalanced : books.credits.Balanced) (hzeros : books.NoZeros)
    (hcapacity : books.capacity = run.books.capacity)
    (htotal : books.total + released = run.books.total) :
    Sound { run with books, released := run.released + released } where
  balanced := hbalanced
  noZeros := hzeros
  booked := by
    have hbooked := h.booked
    dsimp only
    omega
  within := (Nat.le.intro htotal).trans h.within
  capacity := by
    rw [show ({ run with books, released := run.released + released } : AclRun).books.capacity =
      run.books.capacity from hcapacity]
    exact h.capacity

theorem Sound.call (h : run.Sound) (call : AclCall) :
    ∃ after, run.call call = some after ∧ after.Sound := by
  have hbalanced := h.balanced
  cases call with
  | claim handle =>
    obtain ⟨books, hclaim, hcredits, hzeros⟩ :=
      @AclBooks.credits_claim _ handle hbalanced h.capacity.2
    refine ⟨_, by rw [AclRun.call, hclaim]; rfl, ?_⟩
    have hafter : books.credits.Balanced := hcredits ▸ hbalanced.claim handle
    have htotal : books.total = (run.books.credits.claim handle).1.total :=
      congrArg AclCredits.total hcredits
    have hcapacity : books.capacity = run.books.capacity :=
      (congrArg AclCredits.capacity hcredits).trans AclBooks.capacity_claim
    have hbooked := h.booked
    have hwithin := h.within
    obtain ⟨hlargest, hbits⟩ := h.capacity
    have hbounds : books.capacity ≤ run.largest ∧ books.capacity ≤ 65535 :=
      ⟨hcapacity.le.trans hlargest, hcapacity.le.trans hbits⟩
    unfold AclCredits.claim at htotal ⊢
    rw [AclBooks.available_credits] at htotal ⊢
    by_cases hnone : run.books.available = 0
    · rw [if_pos hnone] at htotal ⊢
      exact ⟨hafter, hzeros h.noZeros, htotal ▸ hbooked, htotal ▸ hwithin, hbounds⟩
    · rw [if_neg hnone] at htotal ⊢
      refine ⟨hafter, hzeros h.noZeros, ?_, ?_, hbounds⟩
      · change books.total + run.released = run.claimed + 1
        rw [htotal]
        change run.books.total + 1 + run.released = run.claimed + 1
        omega
      · change books.total ≤ run.largest
        rw [htotal]
        change run.books.total + 1 ≤ run.largest
        rw [AclBooks.available] at hnone
        omega
  | complete handle count =>
    obtain ⟨books, hcomplete, hcredits, hzeros⟩ :=
      @AclBooks.credits_complete _ handle hbalanced count
    refine ⟨_, by rw [AclRun.call, hcomplete]; rfl, ?_⟩
    refine h.release (hcredits ▸ hbalanced.complete handle count.toNat) (hzeros h.noZeros)
      (congrArg AclCredits.capacity hcredits) ?_
    rw [show books.total = (run.books.credits.complete handle count.toNat).1.total from
      congrArg AclCredits.total hcredits]
    have hle : run.books.credits.outstanding handle ≤ run.books.total :=
      hbalanced.outstanding_le handle
    change run.books.total - min count.toNat (run.books.credits.outstanding handle) +
      min count.toNat (run.books.credits.outstanding handle) = run.books.total
    omega
  | linkDown handle =>
    obtain ⟨books, hdown, hcredits, hzeros⟩ :=
      @AclBooks.credits_linkDown _ handle hbalanced
    refine ⟨_, by rw [AclRun.call, hdown]; rfl, ?_⟩
    refine h.release (hcredits ▸ hbalanced.linkDown handle) (hzeros h.noZeros)
      (congrArg AclCredits.capacity hcredits) ?_
    rw [show books.total = (run.books.credits.linkDown handle).1.total from
      congrArg AclCredits.total hcredits]
    have hle : run.books.credits.outstanding handle ≤ run.books.total :=
      hbalanced.outstanding_le handle
    change run.books.total - run.books.credits.outstanding handle +
      run.books.credits.outstanding handle = run.books.total
    omega
  | setCapacity capacity =>
    refine ⟨_, rfl, h.balanced, h.noZeros, h.booked, h.within.trans (Nat.le_max_left _ _),
      Nat.le_max_right _ _, ?_⟩
    change max capacity.toNat 1 ≤ 65535
    have := capacity.toNat_lt
    omega

theorem Sound.calls (h : run.Sound) (calls : List AclCall) :
    ∃ after, run.calls calls = some after ∧ after.Sound := by
  induction calls generalizing run with
  | nil => exact ⟨run, rfl, h⟩
  | cons call calls ih =>
    obtain ⟨next, hnext, hsound⟩ := h.call call
    obtain ⟨after, hafter, hlast⟩ := ih hsound
    refine ⟨after, ?_, hlast⟩
    rw [AclRun.calls, List.foldlM_cons, hnext]
    exact hafter

/-- A claim succeeds exactly when there is room. -/
theorem Sound.claim_iff (h : run.Sound) (handle : ConnectionHandle) :
    (∃ after, run.books.claim handle = some (after, true)) ↔
      run.books.total < run.books.capacity := by
  obtain ⟨books, hclaim, -, -⟩ :=
    @AclBooks.credits_claim _ handle h.balanced h.capacity.2
  rw [hclaim]
  unfold AclCredits.claim
  rw [AclBooks.available_credits, AclBooks.available]
  by_cases hroom : run.books.total < run.books.capacity
  · rw [if_neg (by omega)]
    exact iff_of_true ⟨books, rfl⟩ hroom
  · rw [if_pos (by omega)]
    refine iff_of_false ?_ hroom
    rintro ⟨after, hafter⟩
    cases hafter

/-- **The credits are conserved.**  However links claim, controllers report,
links go down and the pool is resized, no sum or difference leaves its bounds;
the total is the sum of what is outstanding on the links, none of which is
listed with nothing; it is what was claimed less what was released; a claim
succeeds exactly when the total is below the capacity; and the total is at most
the largest capacity there has been. -/
theorem credits_conserved (capacity : UInt16) (calls : List AclCall) :
    ∃ run, (start capacity).calls calls = some run ∧
      ∑ handle, (run.books.outstanding handle).getD 0 = run.books.total ∧
      (∀ handle, run.books.outstanding handle ≠ some 0) ∧
      run.books.total + run.released = run.claimed ∧
      (∀ handle, (∃ after, run.books.claim handle = some (after, true)) ↔
        run.books.total < run.books.capacity) ∧
      run.books.total ≤ run.largest := by
  obtain ⟨run, hrun, hsound⟩ := (sound_start capacity).calls calls
  exact ⟨run, hrun, hsound.balanced, hsound.noZeros, hsound.booked, hsound.claim_iff,
    hsound.within⟩

end AclRun

end Castaway.Hci
