import Castaway.AirPlay.Negotiation
import Mathlib.Data.List.MinMax
import Mathlib.Data.Prod.Lex

/-!
# Which form of a cover to ask for

A peer lists the forms it holds of an image, or will make of it, and
`largestDecodableWithin` picks the largest that is small enough to fetch.  A
listing is given by the attributes of its elements, trimmed as `attribute()`
trims them.

`bestWithin` is the largest size that one descriptor offers within a ceiling
(`bestWithin_spec`), unless a side of it is empty: a ratio far from a square has
no height left once its width is scaled to the ceiling.  `chosen_right_iff` says
when that is what is chosen.

`parse_iff` reads the grammar of sizes off `parse`.
-/

namespace Castaway.Bluetooth

open Castaway.AirPlay (Text)
open List

/-! ## Sizes -/

/-- The `pixel` attribute of a descriptor. -/
inductive PixelSize where
  | fixed (width height : UInt16)
  | range (minWidth minHeight maxWidth maxHeight : UInt16)
  | fixedRatioRange (minWidth maxWidth maxHeight : UInt16)
  deriving DecidableEq

/-- What stands before the first `c`, and what stands behind it. -/
def splitOnce (c : Char) (t : Text) : Option (Text × Text) :=
  match t.dropWhile fun d => d != c with
  | [] => none
  | _ :: after => some (t.takeWhile fun d => d != c, after)

def stripSuffix (suffix t : Text) : Option Text :=
  if suffix.isSuffixOf t then some (t.take (t.length - suffix.length)) else none

/-- One to five digits, and nothing else.  The source counts bytes where this
counts characters, and what is longer in bytes is not digits. -/
def pixelNumber (t : Text) : Option UInt16 :=
  if t.isEmpty || decide (5 < t.length) || t.any fun c => !c.isDigit then none
  else
    let n := Nat.ofDigitChars 10 t 0
    if n < 65536 then some (UInt16.ofNat n) else none

/-- A `w*h` pair. -/
def dimension (t : Text) : Option (UInt16 × UInt16) := do
  let (w, h) ← splitOnce '*' t
  return (← pixelNumber w, ← pixelNumber h)

/-- `value * numerator / denominator`, rounded down.  The product of two 16-bit
numbers is a 32-bit number. -/
def scaled (value numerator denominator : UInt16) : UInt16 :=
  let n := value.toNat * numerator.toNat / max denominator.toNat 1
  if n < 65536 then UInt16.ofNat n else 65535

namespace PixelSize

def parse (value : Text) : Option PixelSize :=
  match splitOnce '-' value with
  | none => (dimension value).map fun (width, height) => fixed width height
  | some (lower, upper) => do
      let (maxWidth, maxHeight) ← dimension upper
      -- the only place where a height may be left out
      match stripSuffix ['*', '*'] lower with
      | some minWidth =>
        let minWidth ← pixelNumber minWidth
        if minWidth ≤ maxWidth then some (fixedRatioRange minWidth maxWidth maxHeight) else none
      | none =>
        let (minWidth, minHeight) ← dimension lower
        if minWidth ≤ maxWidth ∧ minHeight ≤ maxHeight then
          some (range minWidth minHeight maxWidth maxHeight)
        else none

def number (n : UInt16) : Text := Nat.toDigits 10 n.toNat

def asWritten : PixelSize → Text
  | fixed width height => number width ++ '*' :: number height
  | range minWidth minHeight maxWidth maxHeight =>
    number minWidth ++ '*' :: number minHeight ++ '-' ::
      (number maxWidth ++ '*' :: number maxHeight)
  | fixedRatioRange minWidth maxWidth maxHeight =>
    number minWidth ++ ['*', '*'] ++ '-' :: (number maxWidth ++ '*' :: number maxHeight)

/-- The largest size inside the descriptor with no side over `maxSide`. -/
def bestWithin (maxSide : UInt16) : PixelSize → Option (UInt16 × UInt16)
  | fixed width height =>
    if width ≤ maxSide ∧ height ≤ maxSide then some (width, height) else none
  | range minWidth minHeight maxWidth maxHeight =>
    if maxSide < minWidth ∨ maxSide < minHeight then none
    else some (min maxWidth maxSide, min maxHeight maxSide)
  | fixedRatioRange minWidth maxWidth maxHeight =>
    let longest := max maxWidth maxHeight
    if longest ≤ maxSide then some (maxWidth, maxHeight)
    else
      let width := scaled maxWidth maxSide longest
      let height := scaled maxHeight maxSide longest
      if minWidth ≤ width then some (width, height) else none

end PixelSize

/-! ## Listings -/

inductive ImageFormat where
  | jpeg
  | png
  | gif
  | bmp
  | webP
  | tiff
  | ico
  | tga
  | hdr
  | openExr
  | pnm
  | qoi
  deriving DecidableEq

def ImageFormat.parse (t : Text) : Option ImageFormat :=
  let token := (Text.trim ((t.splitOn '/').getLast?.getD t)).map Char.toLower
  if token ∈ ["jpeg".toList, "jpg".toList] then some jpeg
  else if token = "png".toList then some png
  else if token = "gif".toList then some gif
  else if token ∈ ["bmp".toList, "x-bmp".toList, "x-ms-bmp".toList] then some bmp
  else if token = "webp".toList then some webP
  else if token ∈ ["tiff".toList, "tif".toList] then some tiff
  else if token ∈ ["ico".toList, "x-icon".toList, "vnd.microsoft.icon".toList] then some ico
  else if token ∈ ["tga".toList, "targa".toList, "x-targa".toList, "x-tga".toList] then some tga
  else if token ∈ ["hdr".toList, "vnd.radiance".toList] then some hdr
  else if token ∈ ["exr".toList, "x-exr".toList] then some openExr
  else if token ∈ ["pnm".toList, "x-portable-anymap".toList, "x-portable-bitmap".toList,
      "x-portable-graymap".toList, "x-portable-pixmap".toList] then some pnm
  else if token ∈ ["qoi".toList, "x-qoi".toList] then some qoi
  else none

/-- An encoding, as the peer spelled it. -/
inductive Encoding where
  | known (format : ImageFormat) (token : Text)
  | unknown (token : Text)
  deriving DecidableEq

namespace Encoding

def parse (token : Text) : Encoding :=
  match ImageFormat.parse token with
  | some format => known format token
  | none => unknown token

def format : Encoding → Option ImageFormat
  | known format _ => some format
  | unknown _ => none

end Encoding

inductive VariantKind where
  | native
  | variant
  deriving DecidableEq

/-- What a form weighs, or the most that it will. -/
inductive ByteSize where
  | exact (n : ℕ)
  | atMost (n : ℕ)
  deriving DecidableEq

def ByteSize.bytes : ByteSize → ℕ
  | exact n | atMost n => n

structure ImageVariant where
  kind : VariantKind
  encoding : Encoding
  pixel : Option PixelSize
  size : Option ByteSize
  deriving DecidableEq

/-- An element of a listing, with those of its attributes that are read. -/
structure Element where
  kind : VariantKind
  encoding : Option Text
  pixel : Option Text
  size : Option Text
  maxsize : Option Text

/-- The form that an element describes.  One without an encoding describes none.
-/
def Element.read (element : Element) : Option ImageVariant :=
  element.encoding.map fun encoding =>
    { kind := element.kind
      encoding := .parse encoding
      pixel := element.pixel.bind PixelSize.parse
      size := match element.kind with
        | .native => (element.size.bind (Text.unsigned 64)).map .exact
        | .variant => (element.maxsize.bind (Text.unsigned 64)).map .atMost }

def variants (listing : List Element) : List ImageVariant := listing.filterMap Element.read

/-- A form, at the size to ask for. -/
structure ChosenImage where
  variant : ImageVariant
  size : UInt16 × UInt16

namespace ChosenImage

def cheapForTheRadio (chosen : ChosenImage) : Bool :=
  chosen.variant.encoding.format == some .jpeg

def key (chosen : ChosenImage) : ℕ ×ₗ Bool :=
  toLex (chosen.size.1.toNat * chosen.size.2.toNat, chosen.cheapForTheRadio)

end ChosenImage

def ImageVariant.candidate (maxSide : UInt16) (variant : ImageVariant) : Option ChosenImage := do
  let pixel ← variant.pixel
  let size ← pixel.bestWithin maxSide
  return ⟨variant, size⟩

/-- A form that can be decoded and is not said to be too heavy. -/
def ImageVariant.Acceptable (maxBytes : ℕ) (variant : ImageVariant) : Prop :=
  variant.encoding.format.isSome ∧ ∀ size ∈ variant.size, size.bytes ≤ maxBytes

instance (maxBytes : ℕ) (variant : ImageVariant) : Decidable (variant.Acceptable maxBytes) :=
  inferInstanceAs (Decidable (_ ∧ _))

def candidates (maxSide : UInt16) (maxBytes : ℕ) (variants : List ImageVariant) :
    List ChosenImage :=
  (variants.filter fun variant => variant.Acceptable maxBytes).filterMap
    (ImageVariant.candidate maxSide)

/-- The largest form on offer that is worth fetching.  Of several with the
largest key it is the last, so the first of them from the end. -/
def largestDecodableWithin (maxSide : UInt16) (maxBytes : ℕ) (variants : List ImageVariant) :
    Option ChosenImage :=
  (candidates maxSide maxBytes variants).reverse.argmax ChosenImage.key

/-! ## The grammar of sizes -/

/-- A number of the grammar. -/
structure Spells (t : Text) (n : UInt16) : Prop where
  nonempty : t ≠ []
  short : t.length ≤ 5
  digits : ∀ c ∈ t, c.isDigit
  value : Nat.ofDigitChars 10 t 0 = n.toNat

namespace PixelSize

/-- No lower bound is above its upper bound. -/
def Ordered : PixelSize → Prop
  | fixed _ _ => True
  | range minWidth minHeight maxWidth maxHeight => minWidth ≤ maxWidth ∧ minHeight ≤ maxHeight
  | fixedRatioRange minWidth maxWidth _ => minWidth ≤ maxWidth

inductive Spelled : Text → PixelSize → Prop
  | fixed {w h : Text} {width height : UInt16} (hw : Spells w width) (hh : Spells h height) :
      Spelled (w ++ '*' :: h) (fixed width height)
  | range {w h w' h' : Text} {minWidth minHeight maxWidth maxHeight : UInt16}
      (hw : Spells w minWidth) (hh : Spells h minHeight) (hw' : Spells w' maxWidth)
      (hh' : Spells h' maxHeight) (hwidth : minWidth ≤ maxWidth)
      (hheight : minHeight ≤ maxHeight) :
      Spelled (w ++ '*' :: h ++ '-' :: (w' ++ '*' :: h'))
        (range minWidth minHeight maxWidth maxHeight)
  | fixedRatioRange {w w' h' : Text} {minWidth maxWidth maxHeight : UInt16}
      (hw : Spells w minWidth) (hw' : Spells w' maxWidth) (hh' : Spells h' maxHeight)
      (hwidth : minWidth ≤ maxWidth) :
      Spelled (w ++ ['*', '*'] ++ '-' :: (w' ++ '*' :: h'))
        (fixedRatioRange minWidth maxWidth maxHeight)

end PixelSize

variable {t a b : Text} {c : Char} {n width height : UInt16} {pixel : PixelSize}

theorem splitOnce_cons (c d : Char) (t : Text) :
    splitOnce c (d :: t) = if d = c then some ([], t)
      else (splitOnce c t).map fun parts => (d :: parts.1, parts.2) := by
  by_cases h : d = c
  · subst h
    rw [if_pos rfl, splitOnce, dropWhile_cons_of_neg (by simp),
      takeWhile_cons_of_neg (by simp)]
  · have hdrop : (d :: t).dropWhile (fun d => d != c) = t.dropWhile fun d => d != c :=
      dropWhile_cons_of_pos (bne_iff_ne.mpr h)
    have htake : (d :: t).takeWhile (fun d => d != c) = d :: t.takeWhile fun d => d != c :=
      takeWhile_cons_of_pos (bne_iff_ne.mpr h)
    rw [if_neg h, splitOnce, splitOnce, hdrop, htake]
    split <;> rfl

theorem splitOnce_eq_some : splitOnce c t = some (a, b) ↔ t = a ++ c :: b ∧ c ∉ a := by
  induction t generalizing a with
  | nil => simp [splitOnce]
  | cons d t ih =>
    rw [splitOnce_cons]
    by_cases h : d = c
    · subst h
      rw [if_pos rfl]
      cases a with
      | nil => simp
      | cons e a => simp +contextual
    · rw [if_neg h]
      cases a with
      | nil => simp [h]
      | cons e a =>
        simp only [Option.map_eq_some_iff, Prod.exists, Prod.mk.injEq, List.cons.injEq,
          cons_append, mem_cons, not_or]
        constructor
        · rintro ⟨a', b', hsplit, ⟨rfl, rfl⟩, rfl⟩
          obtain ⟨rfl, hnot⟩ := ih.mp hsplit
          exact ⟨⟨rfl, rfl⟩, fun hc => h hc.symm, hnot⟩
        · rintro ⟨⟨rfl, htail⟩, -, hnot⟩
          exact ⟨a, b, ih.mpr ⟨htail, hnot⟩, ⟨rfl, rfl⟩, rfl⟩

theorem splitOnce_eq_none : splitOnce c t = none ↔ c ∉ t := by
  induction t with
  | nil => simp [splitOnce]
  | cons d t ih =>
    rw [splitOnce_cons, mem_cons, not_or]
    by_cases h : d = c
    · simp [h]
    · rw [if_neg h, Option.map_eq_none_iff, ih, and_iff_right fun hc => h hc.symm]

theorem pixelNumber_eq_some : pixelNumber t = some n ↔ Spells t n := by
  unfold pixelNumber
  by_cases hbad : (t.isEmpty || decide (5 < t.length) || t.any fun c => !c.isDigit) = true
  · rw [if_pos hbad]
    refine iff_of_false (by simp) fun h => ?_
    rw [Bool.or_eq_true, Bool.or_eq_true, List.isEmpty_iff, decide_eq_true_iff,
      any_eq_true] at hbad
    rcases hbad with (hnil | hlong) | ⟨c, hc, hdigit⟩
    · exact h.nonempty hnil
    · exact absurd h.short (by omega)
    · rw [h.digits c hc] at hdigit
      cases hdigit
  · rw [if_neg hbad]
    simp only [Bool.or_eq_true, not_or, List.isEmpty_iff, decide_eq_true_iff, any_eq_true,
      not_exists, not_and, Nat.not_lt, Bool.not_eq_true', Bool.not_eq_false] at hbad
    obtain ⟨⟨hnonempty, hshort⟩, hdigits⟩ := hbad
    dsimp only
    constructor
    · intro h
      split at h
      · next hlt =>
          cases h
          exact ⟨hnonempty, hshort, hdigits, by rw [UInt16.toNat_ofNat', Nat.mod_eq_of_lt hlt]⟩
      · cases h
    · intro h
      rw [h.value, if_pos n.toNat_lt, UInt16.ofNat_toNat]

/-- What is not a digit does not stand in a number. -/
theorem Spells.not_mem (h : Spells t n) (hc : c.isDigit = false) : c ∉ t := fun hmem => by
  rw [h.digits c hmem] at hc
  cases hc

theorem dimension_eq_some : dimension t = some (width, height) ↔
    ∃ w h, t = w ++ '*' :: h ∧ Spells w width ∧ Spells h height := by
  unfold dimension
  simp only [Option.bind_eq_bind, Option.pure_def, Option.bind_eq_some_iff, Prod.exists,
    Option.some.injEq, Prod.mk.injEq, pixelNumber_eq_some, splitOnce_eq_some]
  constructor
  · rintro ⟨w, h, ⟨rfl, -⟩, width', hw, height', hh, rfl, rfl⟩
    exact ⟨w, h, rfl, hw, hh⟩
  · rintro ⟨w, h, rfl, hw, hh⟩
    exact ⟨w, h, ⟨rfl, hw.not_mem rfl⟩, width, hw, height, hh, rfl, rfl⟩

theorem dimension_append {w h : Text} (hw : Spells w width) (hh : Spells h height) :
    dimension (w ++ '*' :: h) = some (width, height) :=
  dimension_eq_some.mpr ⟨w, h, rfl, hw, hh⟩

theorem stripSuffix_eq_some {suffix : Text} : stripSuffix suffix t = some a ↔ t = a ++ suffix := by
  unfold stripSuffix
  constructor
  · intro h
    split at h
    · next hsuffix =>
        obtain ⟨before, rfl⟩ := isSuffixOf_iff_suffix.mp hsuffix
        rw [length_append, Nat.add_sub_cancel, take_left] at h
        cases h
        rfl
    · cases h
  · rintro rfl
    rw [if_pos (isSuffixOf_iff_suffix.mpr (suffix_append a suffix)),
      length_append, Nat.add_sub_cancel, take_left]

namespace PixelSize

/-- **`parse` takes the three spellings of the grammar, and nothing else.** -/
theorem parse_iff : parse t = some pixel ↔ Spelled t pixel := by
  unfold parse
  constructor
  · intro hparse
    cases hsplit : splitOnce '-' t with
    | none =>
      rw [hsplit] at hparse
      obtain ⟨⟨width, height⟩, hdimension, rfl⟩ := Option.map_eq_some_iff.mp hparse
      obtain ⟨w, h, rfl, hw, hh⟩ := dimension_eq_some.mp hdimension
      exact .fixed hw hh
    | some parts =>
      obtain ⟨lower, upper⟩ := parts
      obtain ⟨rfl, -⟩ := splitOnce_eq_some.mp hsplit
      rw [hsplit] at hparse
      obtain ⟨⟨maxWidth, maxHeight⟩, hupper, hlower⟩ := Option.bind_eq_some_iff.mp hparse
      obtain ⟨w', h', rfl, hw', hh'⟩ := dimension_eq_some.mp hupper
      dsimp only at hlower
      clear hparse hupper hsplit
      cases hstrip : stripSuffix ['*', '*'] lower with
      | some w =>
        rw [hstrip] at hlower
        obtain rfl := stripSuffix_eq_some.mp hstrip
        obtain ⟨minWidth, hnumber, hordered⟩ := Option.bind_eq_some_iff.mp hlower
        split at hordered
        · next hwidth =>
            cases hordered
            exact .fixedRatioRange (pixelNumber_eq_some.mp hnumber) hw' hh' hwidth
        · cases hordered
      | none =>
        rw [hstrip] at hlower
        obtain ⟨⟨minWidth, minHeight⟩, hdimension, hordered⟩ :=
          Option.bind_eq_some_iff.mp hlower
        obtain ⟨w, h, rfl, hw, hh⟩ := dimension_eq_some.mp hdimension
        dsimp only at hordered
        split at hordered
        · next hbounds =>
            cases hordered
            exact .range hw hh hw' hh' hbounds.1 hbounds.2
        · cases hordered
  · intro h
    cases h with
    | @fixed w h width height hw hh =>
      have hnone : splitOnce '-' (w ++ '*' :: h) = none := by
        rw [splitOnce_eq_none, mem_append, mem_cons]
        rintro (hmem | hmem | hmem)
        · exact hw.not_mem rfl hmem
        · exact absurd hmem (by decide)
        · exact hh.not_mem rfl hmem
      rw [hnone]
      dsimp only
      rw [dimension_append hw hh]
      rfl
    | @range w h w' h' minWidth minHeight maxWidth maxHeight hw hh hw' hh' hwidth hheight =>
      have hsplit : splitOnce '-' (w ++ '*' :: h ++ '-' :: (w' ++ '*' :: h')) =
          some (w ++ '*' :: h, w' ++ '*' :: h') := by
        rw [splitOnce_eq_some, mem_append, mem_cons]
        refine ⟨rfl, ?_⟩
        rintro (hmem | hmem | hmem)
        · exact hw.not_mem rfl hmem
        · exact absurd hmem (by decide)
        · exact hh.not_mem rfl hmem
      -- the last character of the lower bound is a digit
      have hstrip : stripSuffix ['*', '*'] (w ++ '*' :: h) = none := by
        cases hstrip : stripSuffix ['*', '*'] (w ++ '*' :: h) with
        | none => rfl
        | some before =>
          have htext := stripSuffix_eq_some.mp hstrip
          have hlast := congrArg List.getLast? htext
          rw [getLast?_append_of_ne_nil _ (cons_ne_nil _ _),
            getLast?_append_of_ne_nil _ (cons_ne_nil _ _),
            getLast?_cons_of_ne_nil hh.nonempty] at hlast
          exact absurd (mem_of_getLast? hlast) (hh.not_mem rfl)
      rw [hsplit]
      dsimp only
      rw [dimension_append hw' hh', hstrip, dimension_append hw hh]
      exact if_pos ⟨hwidth, hheight⟩
    | @fixedRatioRange w w' h' minWidth maxWidth maxHeight hw hw' hh' hwidth =>
      have hsplit : splitOnce '-' (w ++ ['*', '*'] ++ '-' :: (w' ++ '*' :: h')) =
          some (w ++ ['*', '*'], w' ++ '*' :: h') := by
        rw [splitOnce_eq_some, mem_append]
        refine ⟨rfl, ?_⟩
        rintro (hmem | hmem)
        · exact hw.not_mem rfl hmem
        · exact absurd hmem (by decide)
      rw [hsplit]
      dsimp only
      rw [dimension_append hw' hh', stripSuffix_eq_some.mpr rfl]
      dsimp only [Option.bind_eq_bind, Option.bind_some]
      rw [pixelNumber_eq_some.mpr hw]
      exact if_pos hwidth

theorem spells_number (n : UInt16) : Spells (number n) n where
  nonempty := Nat.toDigits_ne_nil
  short := (Nat.length_toDigits_le_iff (by decide) (by decide)).mpr
    (n.toNat_lt.trans (by decide))
  digits := fun _ => Nat.isDigit_of_mem_toDigits (by decide) (by decide)
  value := Nat.ofDigitChars_toDigits (by decide) (by decide)

theorem parse_asWritten (h : pixel.Ordered) : parse pixel.asWritten = some pixel := by
  rw [parse_iff]
  cases pixel with
  | fixed width height => exact .fixed (spells_number _) (spells_number _)
  | range minWidth minHeight maxWidth maxHeight =>
    exact .range (spells_number _) (spells_number _) (spells_number _) (spells_number _) h.1 h.2
  | fixedRatioRange minWidth maxWidth maxHeight =>
    exact .fixedRatioRange (spells_number _) (spells_number _) (spells_number _) h

theorem ordered_of_parse (h : parse t = some pixel) : pixel.Ordered := by
  cases parse_iff.mp h with
  | fixed hw hh => trivial
  | range hw hh hw' hh' hwidth hheight => exact ⟨hwidth, hheight⟩
  | fixedRatioRange hw hw' hh' hwidth => exact hwidth

end PixelSize

/-! ## The best size of one descriptor -/

theorem toNat_min (a b : UInt16) : (min a b).toNat = min a.toNat b.toNat := by
  change (if a ≤ b then a else b).toNat = _
  by_cases h : a ≤ b
  · rw [if_pos h, min_eq_left (UInt16.le_iff_toNat_le.mp h)]
  · rw [UInt16.le_iff_toNat_le] at h
    rw [if_neg (by rwa [UInt16.le_iff_toNat_le]), min_eq_right (by omega)]

theorem toNat_max (a b : UInt16) : (max a b).toNat = max a.toNat b.toNat := by
  change (if a ≤ b then b else a).toNat = _
  by_cases h : a ≤ b
  · rw [if_pos h, max_eq_right (UInt16.le_iff_toNat_le.mp h)]
  · rw [UInt16.le_iff_toNat_le] at h
    rw [if_neg (by rwa [UInt16.le_iff_toNat_le]), max_eq_left (by omega)]

theorem toNat_scaled {value numerator denominator : UInt16} (h : value.toNat ≤ denominator.toNat) :
    (scaled value numerator denominator).toNat =
      value.toNat * numerator.toNat / denominator.toNat := by
  have hdiv : value.toNat * numerator.toNat / max denominator.toNat 1 =
      value.toNat * numerator.toNat / denominator.toNat := by
    rcases Nat.eq_zero_or_pos denominator.toNat with hzero | hpos
    · have hvalue : value.toNat = 0 := by omega
      simp [hvalue]
    · rw [max_eq_left hpos]
  have hle : value.toNat * numerator.toNat / denominator.toNat ≤ numerator.toNat :=
    Nat.div_le_of_le_mul (Nat.mul_le_mul_right _ h)
  have hlt : value.toNat * numerator.toNat / denominator.toNat < 65536 :=
    hle.trans_lt numerator.toNat_lt
  rw [scaled, hdiv, if_pos hlt, UInt16.toNat_ofNat', Nat.mod_eq_of_lt hlt]

/-- Both sides scaled so that the longer one becomes `side`. -/
theorem toNat_scaled_sides (w h side : UInt16) :
    (scaled w side (max w h)).toNat = w.toNat * side.toNat / max w.toNat h.toNat ∧
      (scaled h side (max w h)).toNat = h.toNat * side.toNat / max w.toNat h.toNat := by
  rw [toNat_scaled (by rw [toNat_max]; exact le_max_left _ _),
    toNat_scaled (by rw [toNat_max]; exact le_max_right _ _), toNat_max]
  exact ⟨rfl, rfl⟩

/-- When both sides of a ratio fit, so does what the longer one was scaled to.
-/
theorem le_of_ratio_within {w h l m : ℕ} (hl : l ≤ max w h) (hw : w * l / max w h ≤ m)
    (hh : h * l / max w h ≤ m) : l ≤ m := by
  rcases Nat.eq_zero_or_pos (max w h) with hzero | hpos
  · omega
  · rcases max_choice w h with hmax | hmax
    · rw [hmax] at hw hpos
      rwa [Nat.mul_div_cancel_left l hpos] at hw
    · rw [hmax] at hh hpos
      rwa [Nat.mul_div_cancel_left l hpos] at hh

def Within (maxSide : UInt16) (size : UInt16 × UInt16) : Prop :=
  size.1.toNat ≤ maxSide.toNat ∧ size.2.toNat ≤ maxSide.toNat

namespace PixelSize

/-- The sizes inside a descriptor.  At a fixed ratio the longer side is any
number of pixels up to its bound, and both sides are scaled with it and rounded
down. -/
def Offers : PixelSize → UInt16 × UInt16 → Prop
  | fixed width height, size => size = (width, height)
  | range minWidth minHeight maxWidth maxHeight, size =>
    (minWidth.toNat ≤ size.1.toNat ∧ size.1.toNat ≤ maxWidth.toNat) ∧
      minHeight.toNat ≤ size.2.toNat ∧ size.2.toNat ≤ maxHeight.toNat
  | fixedRatioRange minWidth maxWidth maxHeight, size =>
    minWidth.toNat ≤ size.1.toNat ∧ ∃ longer ≤ max maxWidth.toNat maxHeight.toNat,
      size.1.toNat = maxWidth.toNat * longer / max maxWidth.toNat maxHeight.toNat ∧
      size.2.toNat = maxHeight.toNat * longer / max maxWidth.toNat maxHeight.toNat

variable {maxSide : UInt16} {best size : UInt16 × UInt16}

/-- The best size is on offer and within the ceiling, and no other such size has
a longer side. -/
theorem bestWithin_spec (hordered : pixel.Ordered) (h : pixel.bestWithin maxSide = some best) :
    pixel.Offers best ∧ Within maxSide best ∧
      ∀ size, pixel.Offers size → Within maxSide size →
        size.1.toNat ≤ best.1.toNat ∧ size.2.toNat ≤ best.2.toNat := by
  cases pixel with
  | fixed width height =>
    rw [bestWithin] at h
    split at h
    · next hfits =>
        cases h
        refine ⟨rfl, ⟨UInt16.le_iff_toNat_le.mp hfits.1, UInt16.le_iff_toNat_le.mp hfits.2⟩, ?_⟩
        rintro size rfl -
        exact ⟨Nat.le_refl _, Nat.le_refl _⟩
    · cases h
  | range minWidth minHeight maxWidth maxHeight =>
    rw [bestWithin] at h
    obtain ⟨hwidth, hheight⟩ := hordered
    rw [UInt16.le_iff_toNat_le] at hwidth hheight
    split at h
    · cases h
    · next hfits =>
        cases h
        simp only [UInt16.lt_iff_toNat_lt, not_or, Nat.not_lt] at hfits
        simp only [Offers, Within, toNat_min]
        refine ⟨by omega, by omega, fun size hoffers hwithin => by omega⟩
  | fixedRatioRange minWidth maxWidth maxHeight =>
    rw [bestWithin] at h
    have hwidth : minWidth.toNat ≤ maxWidth.toNat := UInt16.le_iff_toNat_le.mp hordered
    dsimp only at h
    split at h
    · next hfits =>
        cases h
        rw [UInt16.le_iff_toNat_le, toNat_max] at hfits
        have hself (side : ℕ) (hside : side ≤ max maxWidth.toNat maxHeight.toNat) :
            side = side * max maxWidth.toNat maxHeight.toNat /
              max maxWidth.toNat maxHeight.toNat := by
          rcases Nat.eq_zero_or_pos (max maxWidth.toNat maxHeight.toNat) with hzero | hpos
          · rw [hzero, Nat.div_zero]
            omega
          · rw [Nat.mul_div_cancel side hpos]
        refine ⟨⟨hwidth, _, Nat.le_refl _, hself _ (le_max_left _ _),
          hself _ (le_max_right _ _)⟩, ⟨by dsimp only; omega, by dsimp only; omega⟩, ?_⟩
        rintro size ⟨-, longer, hlonger, hw, hh⟩ -
        rw [hw, hh]
        exact ⟨Nat.div_le_of_le_mul (by rw [Nat.mul_comm]; exact Nat.mul_le_mul_right _ hlonger),
          Nat.div_le_of_le_mul (by rw [Nat.mul_comm]; exact Nat.mul_le_mul_right _ hlonger)⟩
    · next hlarge =>
        rw [UInt16.le_iff_toNat_le, toNat_max, Nat.not_le] at hlarge
        split at h
        · next hmin =>
            cases h
            obtain ⟨hw, hh⟩ := toNat_scaled_sides maxWidth maxHeight maxSide
            rw [UInt16.le_iff_toNat_le, hw] at hmin
            simp only [Offers, Within, hw, hh]
            refine ⟨⟨hmin, maxSide.toNat, Nat.le_of_lt hlarge, rfl, rfl⟩, ⟨?_, ?_⟩, ?_⟩
            · exact Nat.div_le_of_le_mul (Nat.mul_le_mul_right _ (le_max_left _ _))
            · exact Nat.div_le_of_le_mul (Nat.mul_le_mul_right _ (le_max_right _ _))
            · rintro size ⟨-, longer, hlonger, hwidth, hheight⟩ ⟨hwithin, hwithin'⟩
              have hle : longer ≤ maxSide.toNat :=
                le_of_ratio_within hlonger (hwidth ▸ hwithin) (hheight ▸ hwithin')
              rw [hwidth, hheight]
              exact ⟨Nat.div_le_div_right (Nat.mul_le_mul_left _ hle),
                Nat.div_le_div_right (Nat.mul_le_mul_left _ hle)⟩
        · cases h

theorem not_within_of_bestWithin_eq_none (h : pixel.bestWithin maxSide = none)
    (hoffers : pixel.Offers size) : ¬ Within maxSide size := by
  rintro ⟨hw, hh⟩
  cases pixel with
  | fixed width height =>
    rw [bestWithin] at h
    obtain rfl := hoffers
    rw [if_pos ⟨UInt16.le_iff_toNat_le.mpr hw, UInt16.le_iff_toNat_le.mpr hh⟩] at h
    cases h
  | range minWidth minHeight maxWidth maxHeight =>
    rw [bestWithin] at h
    obtain ⟨⟨hmin, -⟩, hmin', -⟩ := hoffers
    rw [if_neg (by simp only [UInt16.lt_iff_toNat_lt]; omega)] at h
    cases h
  | fixedRatioRange minWidth maxWidth maxHeight =>
    rw [bestWithin] at h
    obtain ⟨hmin, longer, hlonger, hwidth, hheight⟩ := hoffers
    dsimp only at h
    split at h
    · cases h
    · split at h
      · cases h
      · next hnarrow =>
          rw [UInt16.le_iff_toNat_le, (toNat_scaled_sides _ _ _).1] at hnarrow
          have hle : longer ≤ maxSide.toNat :=
            le_of_ratio_within hlonger (hwidth ▸ hw) (hheight ▸ hh)
          have hmono := @Nat.div_le_div_right _ _ (max maxWidth.toNat maxHeight.toNat)
            (Nat.mul_le_mul_left maxWidth.toNat hle)
          omega

def Empties (maxSide : UInt16) : PixelSize → Prop
  | fixed width height => (width ≤ maxSide ∧ height ≤ maxSide) ∧ (width = 0 ∨ height = 0)
  | range minWidth minHeight maxWidth maxHeight =>
    (minWidth ≤ maxSide ∧ minHeight ≤ maxSide) ∧ (maxWidth = 0 ∨ maxHeight = 0)
  | fixedRatioRange minWidth maxWidth maxHeight =>
    if max maxWidth.toNat maxHeight.toNat ≤ maxSide.toNat then maxWidth = 0 ∨ maxHeight = 0
    else
      minWidth.toNat ≤ maxWidth.toNat * maxSide.toNat / max maxWidth.toNat maxHeight.toNat ∧
        (maxWidth.toNat * maxSide.toNat < max maxWidth.toNat maxHeight.toNat ∨
          maxHeight.toNat * maxSide.toNat < max maxWidth.toNat maxHeight.toNat)

theorem eq_zero_iff {n : UInt16} : n = 0 ↔ n.toNat = 0 := by
  rw [← UInt16.toNat_inj]
  rfl

theorem empties_iff (hmax : 1 ≤ maxSide) : pixel.Empties maxSide ↔
    ∃ best, pixel.bestWithin maxSide = some best ∧ (best.1.toNat = 0 ∨ best.2.toNat = 0) := by
  have hpos : 1 ≤ maxSide.toNat := UInt16.le_iff_toNat_le.mp hmax
  cases pixel with
  | fixed width height =>
    simp only [Empties, bestWithin, eq_zero_iff]
    split
    · next hfits => simp [hfits]
    · next hlarge => simp [hlarge]
  | range minWidth minHeight maxWidth maxHeight =>
    simp only [Empties, bestWithin, eq_zero_iff, UInt16.lt_iff_toNat_lt, UInt16.le_iff_toNat_le]
    split
    · next hlarge =>
        refine iff_of_false (fun h => ?_) (by simp)
        omega
    · next hfits =>
        simp only [Option.some.injEq, exists_eq_left', toNat_min]
        omega
  | fixedRatioRange minWidth maxWidth maxHeight =>
    obtain ⟨hw, hh⟩ := toNat_scaled_sides maxWidth maxHeight maxSide
    simp only [Empties, bestWithin, eq_zero_iff, UInt16.le_iff_toNat_le, toNat_max, hw]
    split
    · simp
    · next hlarge =>
        split
        · next hmin =>
            simp only [Option.some.injEq, exists_eq_left', hw, hh, Nat.div_eq_zero_iff]
            rw [and_iff_right hmin]
            omega
        · next hnarrow => simp [hnarrow]

end PixelSize

/-! ## The best form of a listing -/

/-- A form of the listing and a size to ask it for, with no side empty and none
above the ceiling. -/
structure Choice (maxSide : UInt16) (maxBytes : ℕ) (variants : List ImageVariant)
    (variant : ImageVariant) (size : UInt16 × UInt16) : Prop where
  listed : variant ∈ variants
  acceptable : variant.Acceptable maxBytes
  offered : ∃ pixel ∈ variant.pixel, pixel.Offers size
  nonempty : 1 ≤ size.1.toNat ∧ 1 ≤ size.2.toNat
  within : Within maxSide size

/-- What is chosen is a choice and no other is better; nothing is chosen only
where there is no choice. -/
def Right (maxSide : UInt16) (maxBytes : ℕ) (variants : List ImageVariant) :
    Option ChosenImage → Prop
  | none => ∀ variant size, ¬ Choice maxSide maxBytes variants variant size
  | some chosen =>
    Choice maxSide maxBytes variants chosen.variant chosen.size ∧
      ∀ variant size, Choice maxSide maxBytes variants variant size →
        (⟨variant, size⟩ : ChosenImage).key ≤ chosen.key

variable {maxSide : UInt16} {maxBytes : ℕ} {listed : List ImageVariant} {variant : ImageVariant}
  {size : UInt16 × UInt16} {chosen : ChosenImage}

theorem mem_candidates : chosen ∈ candidates maxSide maxBytes listed ↔
    chosen.variant ∈ listed ∧ chosen.variant.Acceptable maxBytes ∧
      ∃ pixel ∈ chosen.variant.pixel, pixel.bestWithin maxSide = some chosen.size := by
  simp only [candidates, mem_filterMap, mem_filter, decide_eq_true_eq,
    ImageVariant.candidate, Option.bind_eq_bind, Option.pure_def, Option.bind_eq_some_iff,
    Option.some.injEq, Option.mem_def]
  constructor
  · rintro ⟨variant, ⟨hlisted, hacceptable⟩, pixel, hpixel, size, hsize, rfl⟩
    exact ⟨hlisted, hacceptable, pixel, hpixel, hsize⟩
  · rintro ⟨hlisted, hacceptable, pixel, hpixel, hsize⟩
    exact ⟨chosen.variant, ⟨hlisted, hacceptable⟩, pixel, hpixel, chosen.size, hsize, rfl⟩

theorem ordered_of_listed {listing : List Element} (h : variant ∈ variants listing)
    (hpixel : pixel ∈ variant.pixel) : pixel.Ordered := by
  obtain ⟨element, -, hread⟩ := mem_filterMap.mp h
  obtain ⟨encoding, -, rfl⟩ := Option.map_eq_some_iff.mp hread
  obtain ⟨t, -, hparse⟩ := Option.bind_eq_some_iff.mp hpixel
  exact PixelSize.ordered_of_parse hparse

/-- Every choice has a candidate of the same form that is no smaller. -/
theorem Choice.candidate (h : Choice maxSide maxBytes listed variant size)
    (hordered : ∀ variant ∈ listed, ∀ pixel ∈ variant.pixel, pixel.Ordered) :
    ∃ best, ⟨variant, best⟩ ∈ candidates maxSide maxBytes listed ∧
      (⟨variant, size⟩ : ChosenImage).key ≤ (⟨variant, best⟩ : ChosenImage).key := by
  obtain ⟨pixel, hpixel, hoffers⟩ := h.offered
  cases hbest : pixel.bestWithin maxSide with
  | none => exact absurd h.within (PixelSize.not_within_of_bestWithin_eq_none hbest hoffers)
  | some best =>
    obtain ⟨-, -, hlargest⟩ := PixelSize.bestWithin_spec (hordered _ h.listed _ hpixel) hbest
    obtain ⟨hwidth, hheight⟩ := hlargest size hoffers h.within
    refine ⟨best, mem_candidates.mpr ⟨h.listed, h.acceptable, pixel, hpixel, hbest⟩, ?_⟩
    rw [ChosenImage.key, ChosenImage.key, Prod.Lex.toLex_le_toLex]
    rcases (Nat.mul_le_mul hwidth hheight).lt_or_eq with hlt | heq
    · exact .inl hlt
    · exact .inr ⟨heq, le_refl _⟩

theorem area_le_of_key_le {a b : ChosenImage} (h : a.key ≤ b.key) :
    a.size.1.toNat * a.size.2.toNat ≤ b.size.1.toNat * b.size.2.toNat := by
  rcases Prod.Lex.toLex_le_toLex.mp h with hlt | ⟨heq, -⟩
  · exact Nat.le_of_lt hlt
  · exact Nat.le_of_eq heq

theorem right_iff (hmax : 1 ≤ maxSide)
    (hordered : ∀ variant ∈ listed, ∀ pixel ∈ variant.pixel, pixel.Ordered) :
    Right maxSide maxBytes listed (largestDecodableWithin maxSide maxBytes listed) ↔
      (∃ variant size, Choice maxSide maxBytes listed variant size) ∨
        ∀ variant ∈ listed, variant.Acceptable maxBytes → ∀ pixel ∈ variant.pixel,
          ¬ pixel.Empties maxSide := by
  cases hchosen : largestDecodableWithin maxSide maxBytes listed with
  | none =>
    have hnone : candidates maxSide maxBytes listed = [] :=
      reverse_eq_nil_iff.mp (argmax_eq_none.mp hchosen)
    refine iff_of_true (fun variant size hchoice => ?_) (.inr fun variant hlisted hacceptable
      pixel hpixel hempties => ?_)
    · obtain ⟨best, hmem, -⟩ := hchoice.candidate hordered
      rw [hnone] at hmem
      exact not_mem_nil hmem
    · obtain ⟨best, hbest, -⟩ := (PixelSize.empties_iff hmax).mp hempties
      have hmem : ⟨variant, best⟩ ∈ candidates maxSide maxBytes listed :=
        mem_candidates.mpr ⟨hlisted, hacceptable, pixel, hpixel, hbest⟩
      rw [hnone] at hmem
      exact not_mem_nil hmem
  | some chosen =>
    have hmem : chosen ∈ candidates maxSide maxBytes listed :=
      mem_reverse.mp (argmax_mem (Option.mem_def.mpr hchosen))
    have hlargest (other : ChosenImage) (h : other ∈ candidates maxSide maxBytes listed) :
        other.key ≤ chosen.key :=
      le_of_mem_argmax (mem_reverse.mpr h) (Option.mem_def.mpr hchosen)
    obtain ⟨hlisted, hacceptable, pixel, hpixel, hbest⟩ := mem_candidates.mp hmem
    obtain ⟨hoffers, hwithin, -⟩ :=
      PixelSize.bestWithin_spec (hordered _ hlisted _ hpixel) hbest
    by_cases hempty : chosen.size.1.toNat = 0 ∨ chosen.size.2.toNat = 0
    · have harea : chosen.size.1.toNat * chosen.size.2.toNat = 0 := Nat.mul_eq_zero.mpr hempty
      refine iff_of_false (fun hright => ?_) ?_
      · have hsides := hright.1.nonempty
        omega
      · rintro (⟨variant, size, hchoice⟩ | hnone)
        · obtain ⟨best, hcandidate, hkey⟩ := hchoice.candidate hordered
          have hle := area_le_of_key_le (hkey.trans (hlargest _ hcandidate))
          have hpos := Nat.mul_pos hchoice.nonempty.1 hchoice.nonempty.2
          dsimp only at hle
          omega
        · exact hnone _ hlisted hacceptable pixel hpixel
            ((PixelSize.empties_iff hmax).mpr ⟨chosen.size, hbest, hempty⟩)
    · have hchoice : Choice maxSide maxBytes listed chosen.variant chosen.size :=
        ⟨hlisted, hacceptable, ⟨pixel, hpixel, hoffers⟩, by omega, hwithin⟩
      refine iff_of_true ⟨hchoice, fun variant size hother => ?_⟩ (.inl ⟨_, _, hchoice⟩)
      obtain ⟨best, hcandidate, hkey⟩ := hother.candidate hordered
      exact hkey.trans (hlargest _ hcandidate)

/-- **What is chosen is the best that the listing allows, unless all that it
allows is a size with an empty side**; and sizes are written and read by the
grammar. -/
theorem chosen_right_iff (listing : List Element) (maxSide : UInt16) (maxBytes : ℕ)
    (hmax : 1 ≤ maxSide) : (Right maxSide maxBytes (variants listing)
        (largestDecodableWithin maxSide maxBytes (variants listing)) ↔
      (∃ variant size, Choice maxSide maxBytes (variants listing) variant size) ∨
        ∀ variant ∈ variants listing, variant.Acceptable maxBytes → ∀ pixel ∈ variant.pixel,
          ¬ pixel.Empties maxSide) ∧
    (∀ pixel : PixelSize, pixel.Ordered → PixelSize.parse pixel.asWritten = some pixel) ∧
    ∀ (t : Text) (pixel : PixelSize), PixelSize.parse t = some pixel ↔ pixel.Spelled t :=
  ⟨right_iff hmax fun _ hlisted _ hpixel => ordered_of_listed hlisted hpixel,
    fun _ => PixelSize.parse_asWritten, fun _ _ => PixelSize.parse_iff⟩

/-- What a phone lists: the picture it holds, and sizes that it makes of it. -/
def exampleListing : List Element :=
  [⟨.native, some "JPEG".toList, some "200*200".toList, some "12000".toList, none⟩,
    ⟨.variant, some "JPEG".toList, some "100*100-1280*1080".toList, none, none⟩,
    ⟨.variant, some "PNG".toList, some "100*100-1280*1080".toList, none, none⟩]

theorem chosen_right_phone : Right 512 1048576 (variants exampleListing)
      (largestDecodableWithin 512 1048576 (variants exampleListing)) := by
  refine (chosen_right_iff exampleListing 512 1048576 (by decide)).1.mpr (.inl
    ⟨⟨.variant, .known .jpeg "JPEG".toList, some (.range 100 100 1280 1080), none⟩, (512, 512),
      ?_⟩)
  exact ⟨by decide, by decide, ⟨_, rfl, by decide, by decide⟩, by decide, by decide, by decide⟩

/-- A strip of one line, scaled until no line is left of it. -/
theorem strip_chosen_without_height : (largestDecodableWithin 512 1048576 (variants
      [⟨.variant, some "JPEG".toList, some "1**-65535*1".toList, none, none⟩])).map
        ChosenImage.size = some (512, 0) := by
  decide

end Castaway.Bluetooth
