import Mathlib.Data.List.InsertIdx

/-!
# A list with a cursor

A list that is edited while one of its places is current.  An edit before the
current place moves the index along, so that the same item stays current.  What
is read off the items of such a list follows every edit (`map_insert`,
`map_remove`), which is how a copy of one list that holds less of each item is
kept in step with it.
-/

namespace Castaway

universe u v

/-- A list, one place of which is current. -/
structure Cursor (α : Type u) where
  items : List α
  index : ℕ
  deriving DecidableEq, Repr

namespace Cursor

variable {α : Type u} {β : Type v}

def insert (cursor : Cursor α) (index : ℕ) (item : α) : Cursor α :=
  ⟨cursor.items.insertIdx index item,
    if index ≤ cursor.index then cursor.index + 1 else cursor.index⟩

def remove (cursor : Cursor α) (index : ℕ) : Cursor α :=
  ⟨cursor.items.eraseIdx index, if index < cursor.index then cursor.index - 1 else cursor.index⟩

def select (cursor : Cursor α) (index : ℕ) : Cursor α := ⟨cursor.items, index⟩

/-- What `f` reads off the items. -/
def map (f : α → β) (cursor : Cursor α) : Cursor β := ⟨cursor.items.map f, cursor.index⟩

theorem map_insert (f : α → β) (cursor : Cursor α) (index : ℕ) (item : α) :
    (cursor.insert index item).map f = (cursor.map f).insert index (f item) := by
  rw [map, insert, List.map_insertIdx]
  rfl

theorem map_remove (f : α → β) (cursor : Cursor α) (index : ℕ) :
    (cursor.remove index).map f = (cursor.map f).remove index := by
  rw [map, remove, ← List.eraseIdx_map]
  rfl

theorem map_select (f : α → β) (cursor : Cursor α) (index : ℕ) :
    (cursor.select index).map f = (cursor.map f).select index := rfl

theorem length_eq_of_map {f : α → β} {cursor : Cursor α} {copy : Cursor β}
    (h : cursor.map f = copy) : cursor.items.length = copy.items.length := by
  rw [← h, map, List.length_map]

end Cursor

end Castaway
