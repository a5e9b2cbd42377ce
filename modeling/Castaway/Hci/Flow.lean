import Castaway.Hci.Packet
import Mathlib.Algebra.BigOperators.Group.Finset.Piecewise
import Mathlib.Algebra.Order.BigOperators.Group.Finset
import Mathlib.Data.Fintype.EquivFin

/-!
# Credits for the controller's buffers

A controller holds so many fragments and discards what is sent beyond them
without a word, so the fragments that it has not reported complete are counted.
They are counted for each link: a link that goes down gives back all of its own.
-/

namespace Castaway.Hci

open Function

/-- The pool of a controller's buffers.  One credit is one fragment. -/
structure AclCredits where
  capacity : ℕ
  /-- Fragments that have not been reported complete, by link. -/
  outstanding : ConnectionHandle → ℕ
  total : ℕ

namespace AclCredits

def new (capacity : ℕ) : AclCredits := ⟨max capacity 1, fun _ => 0, 0⟩

/-- Resize the pool.  It may shrink below what is outstanding. -/
def setCapacity (credits : AclCredits) (capacity : ℕ) : AclCredits :=
  { credits with capacity := max capacity 1 }

/-- How many fragments may be sent now. -/
def available (credits : AclCredits) : ℕ := credits.capacity - credits.total

/-- Take one credit for a fragment, or say that none is free. -/
def claim (credits : AclCredits) (handle : ConnectionHandle) : AclCredits × Bool :=
  if credits.available = 0 then (credits, false)
  else
    ({ credits with
        total := credits.total + 1
        outstanding := update credits.outstanding handle
          (credits.outstanding handle + 1) }, true)

/-- Return the credits of fragments that were reported complete, no more than
there are. -/
def complete (credits : AclCredits) (handle : ConnectionHandle) (count : ℕ) : AclCredits × ℕ :=
  let released := min count (credits.outstanding handle)
  ({ credits with
      total := credits.total - released
      outstanding := update credits.outstanding handle
        (credits.outstanding handle - released) }, released)

/-- Take back all that is outstanding on a link that went away. -/
def linkDown (credits : AclCredits) (handle : ConnectionHandle) : AclCredits × ℕ :=
  ({ credits with
      total := credits.total - credits.outstanding handle
      outstanding := update credits.outstanding handle 0 }, credits.outstanding handle)

/-! ## The books -/

noncomputable instance : Fintype ConnectionHandle :=
  Fintype.ofInjective (fun handle => (⟨handle.raw.toNat, handle.raw.toNat_lt⟩ : Fin (2 ^ 16))) (by
    intro first second h
    have hraw : first.raw = second.raw := UInt16.toNat_inj.mp (Fin.mk.inj h)
    cases first
    cases second
    cases hraw
    rfl)

def Balanced (credits : AclCredits) : Prop := ∑ handle, credits.outstanding handle = credits.total

variable {credits : AclCredits} {handle : ConnectionHandle}

theorem Balanced.outstanding_le (h : credits.Balanced) (handle : ConnectionHandle) :
    credits.outstanding handle ≤ credits.total := by
  rw [← h]
  exact Finset.single_le_sum (fun _ _ => Nat.zero_le _) (Finset.mem_univ handle)

theorem Balanced.update (h : credits.Balanced) (handle : ConnectionHandle) (count capacity : ℕ) :
    Balanced ⟨capacity, update credits.outstanding handle count,
      credits.total - credits.outstanding handle + count⟩ := by
  have hothers := Finset.sum_update_of_mem (Finset.mem_univ handle) credits.outstanding
    (credits.outstanding handle)
  rw [update_eq_self] at hothers
  have htotal : ∑ other, credits.outstanding other = credits.total := h
  rw [Balanced, Finset.sum_update_of_mem (Finset.mem_univ handle)]
  dsimp only
  omega

theorem balanced_new (capacity : ℕ) : (new capacity).Balanced := Finset.sum_const_zero

theorem Balanced.claim (h : credits.Balanced) (handle : ConnectionHandle) :
    (credits.claim handle).1.Balanced := by
  unfold AclCredits.claim
  split
  · exact h
  · have hupdate := h.update handle (credits.outstanding handle + 1) credits.capacity
    have hle := h.outstanding_le handle
    rwa [show credits.total - credits.outstanding handle + (credits.outstanding handle + 1) =
      credits.total + 1 by omega] at hupdate

theorem Balanced.complete (h : credits.Balanced) (handle : ConnectionHandle) (count : ℕ) :
    (credits.complete handle count).1.Balanced := by
  have hupdate := h.update handle
    (credits.outstanding handle - min count (credits.outstanding handle)) credits.capacity
  have hle := h.outstanding_le handle
  rwa [show credits.total - credits.outstanding handle +
      (credits.outstanding handle - min count (credits.outstanding handle)) =
        credits.total - min count (credits.outstanding handle) by omega] at hupdate

theorem Balanced.linkDown (h : credits.Balanced) (handle : ConnectionHandle) :
    (credits.linkDown handle).1.Balanced := h.update handle 0 credits.capacity

theorem total_claim (h : (credits.claim handle).2 = true) :
    (credits.claim handle).1.total ≤ credits.capacity := by
  unfold claim at h ⊢
  split
  next hnone =>
    rw [if_pos hnone] at h
    cases h
  next hsome =>
    rw [available] at hsome
    dsimp only
    omega

end AclCredits

end Castaway.Hci
