import Mathlib.Data.Rat.Floor
import Mathlib.Tactic.Positivity

/-!
# The picker

A list on the panel: rows of a height, as many as fit, and the corner that goes
back.  The layout says where each row is and whose it is, and a press is
answered from it.  The renderer draws into the same rectangles, but takes what
it writes there from the list itself.

The list is scrolled by a fraction of a row.  A row whose top has gone further
above the list's top than half its height is left out, as is one whose bottom is
below the surface.
-/

namespace Castaway.Pipeline

/-- What a row shows: the line a person reads, a dimmer one under it, and the
mark of the choice in effect. -/
structure Face where
  title : String
  detail : Option String
  marked : Bool
  deriving DecidableEq, Repr

structure PickerItem extends Face where
  /-- Echoed back when the row is pressed. -/
  id : String
  deriving DecidableEq, Repr

/-- A list screen: its rows, and how far it is scrolled, in rows. -/
structure Picker where
  items : List PickerItem
  scroll : ℚ
  deriving DecidableEq, Repr

@[ext]
structure Rect where
  x : ℚ
  y : ℚ
  w : ℚ
  h : ℚ
  deriving DecidableEq, Repr

def Rect.contains (r : Rect) (px py : ℚ) : Bool :=
  r.x ≤ px ∧ px < r.x + r.w ∧ r.y ≤ py ∧ py < r.y + r.h

theorem Rect.contains_iff {r : Rect} {px py : ℚ} :
    r.contains px py ↔ r.x ≤ px ∧ px < r.x + r.w ∧ r.y ≤ py ∧ py < r.y + r.h := by
  simp [contains]

/-- What a press means. -/
inductive PickerHit where
  | back
  | item (id : String)
  deriving DecidableEq, Repr

/-- Where everything lands, in device pixels. -/
structure Layout where
  back : Rect
  /-- In order, each with the id of its item. -/
  rows : List (String × Rect)
  titleBaseline : ℚ
  scale : ℚ
  /-- How many rows the panel can show. -/
  visible : ℕ
  /-- From one row's top to the next. -/
  rowStep : ℚ
  deriving DecidableEq, Repr

def Layout.hit (layout : Layout) (px py : ℚ) : Option PickerHit :=
  if layout.back.contains px py then some .back
  else (layout.rows.find? fun row => row.2.contains px py).map fun row => .item row.1

/-! ## The layout -/

def designHeight : ℚ := 720

def scaleOf (height : ℕ) : ℚ := height / designHeight

def margin (height : ℕ) : ℚ := 90 * scaleOf height

def rowH (height : ℕ) : ℚ := 84 * scaleOf height

def rowGap (height : ℕ) : ℚ := 12 * scaleOf height

def listTop (height : ℕ) : ℚ := 330 * scaleOf height

def listW (width height : ℕ) : ℚ := min (width - margin height * 2) (1100 * scaleOf height)

def backRect (height : ℕ) : Rect where
  x := margin height - 20 * scaleOf height
  y := 60 * scaleOf height
  w := 200 * scaleOf height
  h := 96 * scaleOf height

/-- As many rows as fit.  A surface of no height has a quotient of zeros: it is
not a number there, whose floor the source's `max` makes zero, and it is zero
here. -/
def capacity (height : ℕ) : ℕ :=
  let room := max (height - listTop height - 80 * scaleOf height) 0
  ⌊(room + rowGap height) / (rowH height + rowGap height)⌋₊

namespace Picker

/-- Where the row of an item is, by the item's place in the list. -/
def rowRect (picker : Picker) (width height i : ℕ) : Rect where
  x := margin height
  y := listTop height + (rowH height + rowGap height) * (i - picker.scroll)
  w := listW width height
  h := rowH height

def layout (picker : Picker) (width height : ℕ) : Layout where
  back := backRect height
  rows :=
    let first := ⌊max picker.scroll 0⌋₊
    let listed := ((picker.items.zipIdx.drop first).take (capacity height)).map fun row =>
      (row.1.id, picker.rowRect width height row.2)
    listed.filter fun row =>
      listTop height - rowH height * (1 / 2) ≤ row.2.y ∧ row.2.y + row.2.h ≤ height
  titleBaseline := 232 * scaleOf height
  scale := scaleOf height
  visible := capacity height
  rowStep := rowH height + rowGap height

/-- Which item a panel-normalized point hits. -/
def hit (picker : Picker) (width height : ℕ) (x y : ℚ) : Option PickerHit :=
  (picker.layout width height).hit (x * width) (y * height)

def scrollBy (picker : Picker) (rows : ℚ) (visible : ℕ) : Picker :=
  let most : ℚ := (picker.items.length - visible : ℕ)
  { picker with scroll := min (max (picker.scroll + rows) 0) most }

/-- Whether there is anything above or below what is showing. -/
def overflow (picker : Picker) (visible : ℕ) : Bool × Bool :=
  let most : ℚ := (picker.items.length - visible : ℕ)
  (1 / 100 < picker.scroll, picker.scroll < most - 1 / 100)

/-- The rows that `render` draws: where, and what it writes there before it cuts
a line to the plate.  The items are taken from the front of the list. -/
def renderRows (picker : Picker) (width height : ℕ) : List (Rect × Face) :=
  (picker.items.zip (picker.layout width height).rows).map fun row => (row.2.2, row.1.toFace)

end Picker

end Castaway.Pipeline
