import Castaway.Pipeline.Picker

/-!
# What a row of the picker shows, and what a press on it picks

A surface of any height has room for three rows, so the rows of a layout are two
or three items one after another, from the first whose row is less than 7/16 of
a step above the list's top (`layout_rows`).  No two of their rectangles meet
and a press in one picks its item.  The renderer writes the first items of the
list there: the two agree when the list has not been scrolled past its first
row, and otherwise only if the items look the same (`rows_match_iff`).
-/

namespace Castaway.Pipeline

open List

variable {height : ℕ}

/-! ## The surface -/

theorem scaleOf_pos (h : 0 < height) : 0 < scaleOf height := by
  have hheight : (0 : ℚ) < height := Nat.cast_pos.mpr h
  rw [scaleOf, designHeight]
  positivity

theorem height_eq (height : ℕ) : (height : ℚ) = 720 * scaleOf height := by
  rw [scaleOf, designHeight]
  ring

theorem capacity_zero : capacity 0 = 0 := by
  simp [capacity, rowGap, rowH, listTop, scaleOf]

/-- However high the surface is, three rows fit. -/
theorem capacity_eq (h : 0 < height) : capacity height = 3 := by
  have hscale := scaleOf_pos h
  have hroom : height - listTop height - 80 * scaleOf height = 310 * scaleOf height := by
    rw [height_eq, listTop]
    ring
  have hquotient : (310 * scaleOf height + 12 * scaleOf height) /
      (84 * scaleOf height + 12 * scaleOf height) = 161 / 48 := by
    field_simp
    norm_num
  have hmax : max (310 * scaleOf height) 0 = 310 * scaleOf height := max_eq_left (by positivity)
  rw [capacity, hroom, rowGap, rowH, hmax, hquotient, Nat.floor_eq_iff (by norm_num)]
  norm_num

theorem rowStep_eq (height : ℕ) : rowH height + rowGap height = 96 * scaleOf height := by
  rw [rowH, rowGap]
  ring

/-! ## Rectangles apart -/

def Rect.Apart (r r' : Rect) : Prop := ∀ px py, r.contains px py → ¬ r'.contains px py

theorem Rect.apart_of_le {r r' : Rect} (h : r.y + r.h ≤ r'.y) : r.Apart r' := by
  intro px py hr hr'
  rw [contains_iff] at hr hr'
  linarith [hr.2.2.2, hr'.2.2.1]

/-! ## Windows on a list -/

section Window

variable {α : Type}

theorem window_le {xs : List α} {first n : ℕ} {entry : α × ℕ}
    (h : entry ∈ (xs.zipIdx.drop first).take n) : first ≤ entry.2 := by
  obtain ⟨j, hj, rfl⟩ := getElem_of_mem h
  simp

theorem window_ascends (xs : List α) (first n : ℕ) :
    ((xs.zipIdx.drop first).take n).Pairwise fun a b => a.2 < b.2 := by
  rw [pairwise_iff_getElem]
  intro i j hi hj hlt
  simp
  exact hlt

theorem filter_window (xs : List α) (first n : ℕ) :
    ((xs.zipIdx.drop first).take (n + 1)).filter (fun entry => decide (first + 1 ≤ entry.2)) =
      (xs.zipIdx.drop (first + 1)).take n := by
  by_cases hlt : first < xs.zipIdx.length
  · rw [drop_eq_getElem_cons hlt, take_succ_cons, filter_cons_of_neg (by simp),
      filter_eq_self]
    intro entry hentry
    exact decide_eq_true (window_le hentry)
  · rw [drop_eq_nil_of_le (by omega), drop_eq_nil_of_le (by omega), take_nil,
      take_nil, filter_nil]

/-- Where no two can hold, the one that does is found. -/
theorem find?_of_pairwise {p : α → Bool} {xs : List α}
    (h : xs.Pairwise fun a b => p a → ¬ p b) {a : α} (ha : a ∈ xs) (hp : p a) :
    xs.find? p = some a := by
  induction xs with
  | nil => cases ha
  | cons x xs ih =>
    rw [pairwise_cons] at h
    rcases mem_cons.mp ha with rfl | ha
    · exact find?_cons_of_pos hp
    · have hx : ¬ p x := fun hx => h.1 a ha hx hp
      rw [find?_cons_of_neg hx]
      exact ih h.2 ha

end Window

namespace Picker

variable {picker : Picker} {width : ℕ} {entry : String × Rect}

/-! ## The rows -/

/-- The row at the top is too far up to be shown. -/
def Cut (picker : Picker) : Prop := 7 / 16 < picker.scroll - ⌊picker.scroll⌋₊

instance : Decidable picker.Cut := inferInstanceAs (Decidable (_ < _))

def topRow (picker : Picker) : ℕ := ⌊picker.scroll⌋₊ + if picker.Cut then 1 else 0

def fits (picker : Picker) : ℕ := if picker.Cut then 2 else 3

def shown (picker : Picker) : ℕ := min picker.fits (picker.items.length - picker.topRow)

theorem row_kept_iff (hheight : 0 < height) {i : ℕ} (hlow : ⌊picker.scroll⌋₊ ≤ i)
    (hhigh : i < ⌊picker.scroll⌋₊ + 3) (hscroll : 0 ≤ picker.scroll) :
    (listTop height - rowH height * (1 / 2) ≤ (picker.rowRect width height i).y ∧
      (picker.rowRect width height i).y + (picker.rowRect width height i).h ≤ height) ↔
      picker.topRow ≤ i := by
  have hscale := scaleOf_pos hheight
  have hfloor := Nat.floor_le hscroll
  have hnext := Nat.lt_floor_add_one picker.scroll
  have hlow' : (⌊picker.scroll⌋₊ : ℚ) ≤ i := by exact_mod_cast hlow
  have hhigh' : (i : ℚ) + 1 ≤ ⌊picker.scroll⌋₊ + 3 := by exact_mod_cast hhigh
  have htop : listTop height - rowH height * (1 / 2) ≤ (picker.rowRect width height i).y ↔
      -(7 / 16) ≤ i - picker.scroll := by
    rw [rowRect, rowStep_eq, rowH, listTop]
    dsimp only
    constructor
    · intro h
      by_contra hlt
      nlinarith
    · intro h
      nlinarith
  have hbottom : (picker.rowRect width height i).y + (picker.rowRect width height i).h ≤
      height := by
    rw [rowRect, rowStep_eq, rowH, listTop, height_eq height]
    dsimp only
    nlinarith
  rw [and_iff_left hbottom, htop, topRow]
  by_cases hcut : picker.Cut
  · rw [if_pos hcut]
    unfold Cut at hcut
    constructor
    · intro h
      by_contra hlt
      have heq : i = ⌊picker.scroll⌋₊ := by omega
      rw [heq] at h
      linarith
    · intro h
      have hstep : (⌊picker.scroll⌋₊ : ℚ) + 1 ≤ i := by exact_mod_cast h
      linarith
  · rw [if_neg hcut]
    unfold Cut at hcut
    exact iff_of_true (by linarith) hlow

def row (picker : Picker) (width height : ℕ) (entry : PickerItem × ℕ) : String × Rect :=
  (entry.1.id, picker.rowRect width height entry.2)

theorem layout_rows (hheight : 0 < height) (hscroll : 0 ≤ picker.scroll) :
    (picker.layout width height).rows =
      ((picker.items.zipIdx.drop picker.topRow).take picker.fits).map
        (picker.row width height) := by
  have hfirst : ⌊max picker.scroll 0⌋₊ = ⌊picker.scroll⌋₊ := by rw [max_eq_left hscroll]
  have hkept (entry : PickerItem × ℕ)
      (hentry : entry ∈ (picker.items.zipIdx.drop ⌊picker.scroll⌋₊).take 3) :
      decide (listTop height - rowH height * (1 / 2) ≤ (picker.row width height entry).2.y ∧
        (picker.row width height entry).2.y + (picker.row width height entry).2.h ≤ height) =
      decide (picker.topRow ≤ entry.2) := by
    obtain ⟨j, hj, rfl⟩ := getElem_of_mem hentry
    simp only [length_take, length_drop, lt_min_iff] at hj
    rw [decide_eq_decide]
    apply row_kept_iff hheight _ _ hscroll
    · simp
    · simp
      omega
  rw [layout]
  dsimp only
  rw [hfirst, capacity_eq hheight]
  change List.filter _ (List.map (picker.row width height) _) = _
  rw [filter_map]
  refine congrArg (List.map _) ((filter_congr hkept).trans ?_)
  unfold topRow fits
  by_cases hcut : picker.Cut
  · rw [if_pos hcut, if_pos hcut]
    exact filter_window picker.items _ 2
  · rw [if_neg hcut, if_neg hcut, Nat.add_zero, filter_eq_self]
    intro entry hentry
    exact decide_eq_true (window_le hentry)

theorem rows_zero (picker : Picker) (width : ℕ) : (picker.layout width 0).rows = [] := by
  rw [layout, capacity_zero]
  simp

theorem height_pos_of_mem (h : entry ∈ (picker.layout width height).rows) : 0 < height := by
  rw [Nat.pos_iff_ne_zero]
  rintro rfl
  rw [rows_zero] at h
  cases h

theorem length_rows (hheight : 0 < height) (hscroll : 0 ≤ picker.scroll) :
    (picker.layout width height).rows.length = picker.shown := by
  rw [layout_rows hheight hscroll, length_map, length_take, length_drop,
    length_zipIdx, shown]

theorem shown_lt {j : ℕ} (h : j < picker.shown) : picker.topRow + j < picker.items.length := by
  have := lt_of_lt_of_le h (min_le_right _ _)
  omega

theorem getElem?_rows (hheight : 0 < height) (hscroll : 0 ≤ picker.scroll) {j : ℕ}
    (hj : j < picker.shown) {item : PickerItem}
    (hitem : picker.items[picker.topRow + j]? = some item) : (picker.layout width height).rows[j]? =
      some (item.id, picker.rowRect width height (picker.topRow + j)) := by
  have hfits : j < picker.fits := lt_of_lt_of_le hj (min_le_left _ _)
  rw [layout_rows hheight hscroll, getElem?_map, getElem?_take_of_lt hfits,
    getElem?_drop, getElem?_zipIdx, hitem]
  simp [row]

theorem exists_getElem?_rows (hheight : 0 < height) (hscroll : 0 ≤ picker.scroll) {j : ℕ}
    (hj : j < picker.shown) : ∃ item, picker.items[picker.topRow + j]? = some item ∧
      (picker.layout width height).rows[j]? =
        some (item.id, picker.rowRect width height (picker.topRow + j)) :=
  ⟨_, getElem?_eq_getElem (shown_lt hj),
    getElem?_rows hheight hscroll hj (getElem?_eq_getElem (shown_lt hj))⟩

/-! ## The rectangles -/

theorem le_rowRect (hheight : 0 < height) (hscroll : 0 ≤ picker.scroll) {j : ℕ}
    (hj : j < picker.shown) : listTop height - rowH height * (1 / 2) ≤
        (picker.rowRect width height (picker.topRow + j)).y ∧
      (picker.rowRect width height (picker.topRow + j)).y + rowH height ≤ height := by
  have hfits : j < picker.fits := lt_of_lt_of_le hj (min_le_left _ _)
  have hlow : ⌊picker.scroll⌋₊ ≤ picker.topRow + j := by
    unfold topRow
    omega
  have hhigh : picker.topRow + j < ⌊picker.scroll⌋₊ + 3 := by
    unfold topRow
    unfold fits at hfits
    split at hfits
    · next hcut =>
        rw [if_pos hcut]
        omega
    · next hcut =>
        rw [if_neg hcut]
        omega
  exact (row_kept_iff hheight hlow hhigh hscroll).mpr (Nat.le_add_right _ _)

theorem rowRect_apart (hheight : 0 < height) {i i' : ℕ} (h : i < i') :
    (picker.rowRect width height i).Apart (picker.rowRect width height i') := by
  have hscale := scaleOf_pos hheight
  have hstep : (i : ℚ) + 1 ≤ i' := by exact_mod_cast h
  apply Rect.apart_of_le
  rw [rowRect, rowRect, rowStep_eq, rowH]
  dsimp only
  nlinarith

theorem backRect_apart (hheight : 0 < height) (hscroll : 0 ≤ picker.scroll) {j : ℕ}
    (hj : j < picker.shown) :
    (backRect height).Apart (picker.rowRect width height (picker.topRow + j)) := by
  have hscale := scaleOf_pos hheight
  have hlow := (@le_rowRect _ _ width hheight hscroll j hj).1
  apply Rect.apart_of_le
  rw [listTop, rowH] at hlow
  rw [backRect]
  dsimp only
  linarith

theorem exists_of_mem_rows (hscroll : 0 ≤ picker.scroll)
    (h : entry ∈ (picker.layout width height).rows) :
    ∃ j < picker.shown, entry.2 = picker.rowRect width height (picker.topRow + j) := by
  have hheight := height_pos_of_mem h
  obtain ⟨j, hj⟩ := List.mem_iff_getElem?.mp h
  have hlt : j < picker.shown := by
    rw [← length_rows hheight hscroll]
    exact (List.getElem?_eq_some_iff.mp hj).1
  obtain ⟨item, -, hrow⟩ := @exists_getElem?_rows _ _ width hheight hscroll j hlt
  rw [hj, Option.some_inj] at hrow
  exact ⟨j, hlt, congrArg Prod.snd hrow⟩

def targets (picker : Picker) (width height : ℕ) : List Rect :=
  let layout := picker.layout width height
  layout.back :: layout.rows.map Prod.snd

theorem targets_apart (hscroll : 0 ≤ picker.scroll) :
    (picker.targets width height).Pairwise Rect.Apart := by
  refine pairwise_cons.mpr ⟨?_, ?_⟩
  · intro rect hrect
    obtain ⟨entry, hentry, rfl⟩ := mem_map.mp hrect
    obtain ⟨j, hj, hrow⟩ := exists_of_mem_rows hscroll hentry
    rw [hrow]
    exact backRect_apart (height_pos_of_mem hentry) hscroll hj
  · rcases Nat.eq_zero_or_pos height with rfl | hheight
    · rw [rows_zero]
      exact List.Pairwise.nil
    · rw [layout_rows hheight hscroll, map_map, pairwise_map]
      exact (window_ascends _ _ _).imp fun hlt => rowRect_apart hheight hlt

theorem targets_inside (hscroll : 0 ≤ picker.scroll) {rect : Rect}
    (h : rect ∈ picker.targets width height) : 0 ≤ rect.y ∧ rect.y + rect.h ≤ height := by
  have hscale : 0 ≤ scaleOf height := by
    rw [scaleOf, designHeight]
    positivity
  rcases mem_cons.mp h with rfl | h
  · rw [height_eq height]
    change 0 ≤ (backRect height).y ∧ (backRect height).y + (backRect height).h ≤ _
    rw [backRect]
    dsimp only
    constructor
    · linarith
    · linarith
  · obtain ⟨entry, hentry, rfl⟩ := mem_map.mp h
    have hheight := height_pos_of_mem hentry
    obtain ⟨j, hj, hrow⟩ := exists_of_mem_rows hscroll hentry
    obtain ⟨hlow, hhigh⟩ := @le_rowRect _ _ width hheight hscroll j hj
    rw [hrow]
    refine ⟨?_, hhigh⟩
    rw [listTop, rowH] at hlow
    linarith

/-! ## A press -/

/-- A press in a row's rectangle picks the item that the row is of. -/
theorem hit_row (hscroll : 0 ≤ picker.scroll)
    (h : entry ∈ (picker.layout width height).rows) {x y : ℚ}
    (hin : entry.2.contains (x * width) (y * height)) :
    picker.hit width height x y = some (.item entry.1) := by
  obtain ⟨hback, hrows⟩ := pairwise_cons.mp (@targets_apart _ _ width hscroll)
  rw [pairwise_map] at hrows
  have hnot : ¬ (picker.layout width height).back.contains (x * width) (y * height) := by
    intro hbackin
    exact hback _ (mem_map_of_mem h) _ _ hbackin hin
  have hfound := @find?_of_pairwise _ (fun row => row.2.contains (x * width) (y * height)) _
    (hrows.imp fun hapart => hapart _ _) entry h hin
  rw [hit, Layout.hit, if_neg hnot, hfound]
  rfl

theorem length_rows_le (hscroll : 0 ≤ picker.scroll) :
    (picker.layout width height).rows.length ≤ picker.items.length := by
  rcases Nat.eq_zero_or_pos height with rfl | hheight
  · rw [rows_zero]
    exact Nat.zero_le _
  · rw [length_rows hheight hscroll, shown]
    omega

/-- A row is drawn in each rectangle, and nowhere else. -/
theorem map_fst_renderRows (hscroll : 0 ≤ picker.scroll) :
    (picker.renderRows width height).map Prod.fst =
      (picker.layout width height).rows.map Prod.snd := by
  have hlength := @length_rows_le height picker width hscroll
  rw [renderRows, map_map]
  calc List.map _ (picker.items.zip (picker.layout width height).rows)
      = ((picker.items.zip (picker.layout width height).rows).map Prod.snd).map Prod.snd := by
        rw [map_map]
        rfl
    _ = _ := by rw [map_snd_zip hlength]

/-- What is drawn in a row is the item as far from the front of the list as the
row is from the top. -/
theorem renderRows_getElem? (j : ℕ) {item : PickerItem} (hitem : picker.items[j]? = some item)
    (hentry : (picker.layout width height).rows[j]? = some entry) :
    (picker.renderRows width height)[j]? = some (entry.2, item.toFace) := by
  have hzip : (picker.items.zip (picker.layout width height).rows)[j]? = some (item, entry) :=
    List.getElem?_zip_eq_some.mpr ⟨hitem, hentry⟩
  rw [renderRows, getElem?_map, hzip]
  rfl

/-! ## Scrolling -/

/-- A drag on a surface: by how many rows, and the surface. -/
structure Drag where
  rows : ℚ
  width : ℕ
  height : ℕ

def drag (picker : Picker) (step : Drag) : Picker :=
  picker.scrollBy step.rows (picker.layout step.width step.height).visible

def scrolled (items : List PickerItem) (drags : List Drag) : Picker :=
  drags.foldl drag ⟨items, 0⟩

theorem items_foldl (drags : List Drag) : (drags.foldl drag picker).items = picker.items := by
  induction drags generalizing picker with
  | nil => rfl
  | cons step drags ih => exact ih

theorem scroll_foldl (hscroll : 0 ≤ picker.scroll) (drags : List Drag) :
    0 ≤ (drags.foldl drag picker).scroll := by
  induction drags generalizing picker with
  | nil => exact hscroll
  | cons step drags ih =>
    apply ih
    exact le_min (le_max_right _ _) (Nat.cast_nonneg _)

@[simp] theorem items_scrolled (items : List PickerItem) (drags : List Drag) :
    (scrolled items drags).items = items :=
  items_foldl drags

theorem scroll_scrolled (items : List PickerItem) (drags : List Drag) :
    0 ≤ (scrolled items drags).scroll :=
  scroll_foldl (le_refl 0) drags

/-- An item is brought to the top, or as near to it as the end of the list
allows. -/
theorem exists_row (hheight : 0 < height) {items : List PickerItem} {i : ℕ} {item : PickerItem}
    (hitem : items[i]? = some item) :
    ∃ drags : List Drag, ∃ entry ∈ ((scrolled items drags).layout width height).rows,
      entry.1 = item.id ∧ listTop height ≤ entry.2.y ∧ entry.2.y + entry.2.h ≤ height := by
  have hi : i < items.length := (List.getElem?_eq_some_iff.mp hitem).1
  let first := min i (items.length - 3)
  have hscroll : (scrolled items [⟨i, width, height⟩]).scroll = (first : ℕ) := by
    change min (max (0 + (i : ℚ)) 0) _ = _
    rw [zero_add, max_eq_left (Nat.cast_nonneg i), layout, capacity_eq hheight, Nat.cast_min]
  have hfloor : ⌊((first : ℕ) : ℚ)⌋₊ = first := Nat.floor_natCast first
  have hcut : ¬ (scrolled items [⟨i, width, height⟩]).Cut := by
    rw [Cut, hscroll, hfloor, sub_self]
    norm_num
  have htop : (scrolled items [⟨i, width, height⟩]).topRow = first := by
    rw [topRow, if_neg hcut, hscroll, hfloor, Nat.add_zero]
  have hshown : i - first < (scrolled items [⟨i, width, height⟩]).shown := by
    rw [shown, fits, if_neg hcut, htop, items_scrolled]
    omega
  have hplace : (scrolled items [⟨i, width, height⟩]).topRow + (i - first) = i := by
    rw [htop]
    omega
  have hat : (scrolled items [⟨i, width, height⟩]).items[
      (scrolled items [⟨i, width, height⟩]).topRow + (i - first)]? = some item := by
    rw [hplace, items_scrolled, hitem]
  have hnonneg := scroll_scrolled items [⟨i, width, height⟩]
  have hrow := @getElem?_rows _ _ width hheight hnonneg _ hshown _ hat
  refine ⟨[⟨i, width, height⟩], _, mem_of_getElem? hrow, rfl, ?_, ?_⟩
  · have hscale := (scaleOf_pos hheight).le
    have hle : ((first : ℕ) : ℚ) ≤ i := by exact_mod_cast min_le_left _ _
    rw [hplace, rowRect, rowStep_eq, hscroll]
    dsimp only
    nlinarith
  · exact (@le_rowRect _ _ width hheight hnonneg _ hshown).2

/-! ## What is drawn and what is picked -/

/-- Drawing and pressing agree about a picker on a surface. -/
structure RowsArePresses (picker : Picker) (width height : ℕ) : Prop where
  /-- A row shows the item that a press anywhere in it picks. -/
  shows : ∀ drawn ∈ picker.renderRows width height, ∀ x y : ℚ,
    drawn.1.contains (x * width) (y * height) →
      ∃ item ∈ picker.items,
        picker.hit width height x y = some (.item item.id) ∧ drawn.2 = item.toFace
  /-- A row is drawn in each rectangle, and nowhere else. -/
  drawn : (picker.renderRows width height).map Prod.fst =
    (picker.layout width height).rows.map Prod.snd
  apart : (picker.targets width height).Pairwise Rect.Apart
  inside : ∀ rect ∈ picker.targets width height, 0 ≤ rect.y ∧ rect.y + rect.h ≤ height
  /-- The rows are items one after another. -/
  consecutive : ∃ first n, (picker.layout width height).rows.map Prod.fst =
    ((picker.items.drop first).take n).map PickerItem.id
  /-- Every item has a row, whole and not above the list's top, somewhere down
  the list. -/
  reachable : 0 < (picker.layout width height).visible → ∀ item ∈ picker.items,
    ∃ drags, ∃ entry ∈ ((scrolled picker.items drags).layout width height).rows,
      entry.1 = item.id ∧ listTop height ≤ entry.2.y ∧ entry.2.y + entry.2.h ≤ height

/-- Each row's item looks like the one as far from the front of the list as the
row is from the top: at the top of the list, or where the items look the same.
-/
def LooksUnscrolled (picker : Picker) : Prop :=
  ∀ j < picker.shown, (picker.items[j]?).map PickerItem.toFace =
    (picker.items[picker.topRow + j]?).map PickerItem.toFace

instance : Decidable picker.LooksUnscrolled :=
  inferInstanceAs (Decidable (∀ j < picker.shown, _ = _))

theorem consecutive_rows (hscroll : 0 ≤ picker.scroll) :
    ∃ first n, (picker.layout width height).rows.map Prod.fst =
      ((picker.items.drop first).take n).map PickerItem.id := by
  rcases Nat.eq_zero_or_pos height with rfl | hheight
  · refine ⟨0, 0, ?_⟩
    rw [rows_zero]
    rfl
  · refine ⟨picker.topRow, picker.fits, ?_⟩
    rw [layout_rows hheight hscroll, map_map]
    calc List.map _ ((picker.items.zipIdx.drop picker.topRow).take picker.fits)
        = (((picker.items.zipIdx.drop picker.topRow).take picker.fits).map Prod.fst).map
            PickerItem.id := by
          rw [map_map]
          rfl
      _ = _ := by rw [map_take, map_drop, zipIdx_map_fst]

theorem rowRect_hasPoint (hheight : 0 < height) (hwide : height < 4 * width) (i : ℕ) :
    ∃ x y : ℚ, (picker.rowRect width height i).contains (x * width) (y * height) := by
  have hscale := scaleOf_pos hheight
  have hwidth : (0 : ℚ) < width := by
    rw [Nat.cast_pos]
    omega
  have hheight' : (0 : ℚ) < height := Nat.cast_pos.mpr hheight
  have hwide' : (height : ℚ) < 4 * width := by exact_mod_cast hwide
  have hlist : 0 < listW width height := by
    rw [height_eq height] at hwide'
    rw [listW, margin]
    apply lt_min
    · linarith
    · linarith
  have hrow : 0 < rowH height := by
    rw [rowH]
    linarith
  let rect := picker.rowRect width height i
  refine ⟨rect.x / width, rect.y / height, ?_⟩
  rw [div_mul_cancel₀ _ hwidth.ne', div_mul_cancel₀ _ hheight'.ne', Rect.contains_iff]
  exact ⟨le_refl _, lt_add_of_pos_right _ hlist, le_refl _, lt_add_of_pos_right _ hrow⟩

theorem rowRect_hasNoPoint (hnarrow : 4 * width ≤ height) {i : ℕ} {px py : ℚ} :
    ¬ (picker.rowRect width height i).contains px py := by
  intro hin
  have hnarrow' : 4 * (width : ℚ) ≤ height := by exact_mod_cast hnarrow
  rw [height_eq height] at hnarrow'
  have hlist : listW width height ≤ 0 := by
    refine (min_le_left _ _).trans ?_
    rw [margin]
    linarith
  rw [Rect.contains_iff] at hin
  have hx : px < margin height + listW width height := hin.2.1
  have hmargin : margin height ≤ px := hin.1
  linarith

theorem shows_iff (hids : (picker.items.map PickerItem.id).Nodup) (hscroll : 0 ≤ picker.scroll) :
    (∀ drawn ∈ picker.renderRows width height, ∀ x y : ℚ,
      drawn.1.contains (x * width) (y * height) →
        ∃ item ∈ picker.items,
          picker.hit width height x y = some (.item item.id) ∧ drawn.2 = item.toFace) ↔
      height = 0 ∨ 4 * width ≤ height ∨ picker.LooksUnscrolled := by
  constructor
  · intro hshows
    by_contra hnot
    simp only [not_or, not_le] at hnot
    obtain ⟨hzero, hwide, hlooks⟩ := hnot
    have hheight : 0 < height := Nat.pos_of_ne_zero hzero
    apply hlooks
    intro j hj
    obtain ⟨item, hitem, hrow⟩ := @exists_getElem?_rows _ _ width hheight hscroll j hj
    have hlt := shown_lt hj
    have hfront : picker.items[j]? = some picker.items[j] :=
      getElem?_eq_getElem (by omega)
    have hdrawn := mem_of_getElem? (renderRows_getElem? j hfront hrow)
    obtain ⟨x, y, hin⟩ :=
      @rowRect_hasPoint _ picker width hheight hwide (picker.topRow + j)
    obtain ⟨picked, hpicked, hhit, hface⟩ := hshows _ hdrawn x y hin
    rw [hit_row hscroll (mem_of_getElem? hrow) hin] at hhit
    have hid : item.id = picked.id := PickerHit.item.inj (Option.some_inj.mp hhit)
    have hsame : item = picked :=
      inj_on_of_nodup_map hids (mem_of_getElem? hitem) hpicked hid
    rw [hfront, hitem, Option.map_some, Option.map_some, hsame]
    exact congrArg some hface
  · intro hcondition drawn hdrawn x y hin
    obtain ⟨pair, hpair, rfl⟩ := mem_map.mp hdrawn
    obtain ⟨j, hj⟩ := List.mem_iff_getElem?.mp hpair
    obtain ⟨hfront, hentry⟩ := List.getElem?_zip_eq_some.mp hj
    have hmem := mem_of_getElem? hentry
    have hheight := height_pos_of_mem hmem
    have hlt : j < picker.shown := by
      rw [← length_rows hheight hscroll]
      exact (List.getElem?_eq_some_iff.mp hentry).1
    obtain ⟨item, hitem, hrow⟩ := @exists_getElem?_rows _ _ width hheight hscroll j hlt
    rw [hentry, Option.some_inj] at hrow
    rcases hcondition with hzero | hnarrow | hlooks
    · omega
    · rw [hrow] at hin
      exact absurd hin (rowRect_hasNoPoint hnarrow)
    · have hface := hlooks j hlt
      rw [hfront, hitem, Option.map_some, Option.map_some, Option.some_inj] at hface
      refine ⟨item, mem_of_getElem? hitem, ?_, hface⟩
      rw [hit_row hscroll hmem hin, hrow]

end Picker

open Picker in
/-- Of every picker that is dragged about from its top, on every surface, a row
is the item that a press on it picks when and only when the row shows what it
would at the top, or has no point to press. -/
theorem rows_match_iff {items : List PickerItem} (hids : (items.map PickerItem.id).Nodup)
    (drags : List Drag) (width height : ℕ) : (scrolled items drags).RowsArePresses width height ↔
      height = 0 ∨ 4 * width ≤ height ∨ (scrolled items drags).LooksUnscrolled := by
  have hscroll := scroll_scrolled items drags
  have hids' : ((scrolled items drags).items.map PickerItem.id).Nodup := by
    rwa [items_scrolled]
  rw [← shows_iff hids' hscroll]
  constructor
  · exact fun h => h.shows
  · intro hshows
    refine ⟨hshows, map_fst_renderRows hscroll, targets_apart hscroll,
      fun _ => targets_inside hscroll, consecutive_rows hscroll, ?_⟩
    intro hvisible item hitem
    have hheight : 0 < height := by
      rw [Nat.pos_iff_ne_zero]
      rintro rfl
      rw [layout, capacity_zero] at hvisible
      exact absurd hvisible (lt_irrefl 0)
    obtain ⟨i, hi⟩ := List.mem_iff_getElem?.mp hitem
    exact exists_row hheight hi

open Picker in
/-- Four hosts, dragged down by one row. -/
theorem rows_match_iff_hosts :
    let items : List PickerItem := [⟨⟨"desktop", none, false⟩, "host:a"⟩,
      ⟨⟨"attic", none, false⟩, "host:b"⟩, ⟨⟨"cellar", none, false⟩, "host:c"⟩,
      ⟨⟨"den", none, false⟩, "host:d"⟩]
    (scrolled items [⟨1, 1920, 1080⟩]).RowsArePresses 1920 1080 ↔
      1080 = 0 ∨ 4 * 1920 ≤ 1080 ∨ (scrolled items [⟨1, 1920, 1080⟩]).LooksUnscrolled :=
  rows_match_iff (by decide) _ _ _

open Picker in
/-- The first row is the second host's and says the first's name. -/
theorem scrolled_row_shows_another :
    let items : List PickerItem := [⟨⟨"desktop", none, false⟩, "host:a"⟩,
      ⟨⟨"attic", none, false⟩, "host:b"⟩, ⟨⟨"cellar", none, false⟩, "host:c"⟩,
      ⟨⟨"den", none, false⟩, "host:d"⟩]
    let picker := scrolled items [⟨1, 1920, 1080⟩]
    (picker.renderRows 1920 1080).head? =
        some (picker.rowRect 1920 1080 1, ⟨"desktop", none, false⟩) ∧
      (picker.rowRect 1920 1080 1).contains (1 / 2 * 1920) (1 / 2 * 1080) ∧
      picker.hit 1920 1080 (1 / 2) (1 / 2) = some (.item "host:b") ∧
      ¬ picker.RowsArePresses 1920 1080 := by
  intro items picker
  have hscroll : 0 ≤ picker.scroll := scroll_scrolled _ _
  have hids : (picker.items.map PickerItem.id).Nodup := by decide
  refine ⟨by decide +kernel, by decide +kernel, by decide +kernel, fun h => ?_⟩
  have hcondition := (shows_iff hids hscroll).mp h.shows
  have hnot : ¬ (1080 = 0 ∨ 4 * 1920 ≤ 1080 ∨ picker.LooksUnscrolled) := by decide +kernel
  exact hnot hcondition

end Castaway.Pipeline
