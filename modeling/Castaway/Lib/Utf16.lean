import Castaway.Lib.Bytes

/-!
# Text in sixteen-bit units

A scalar value is one unit or, past the first plane, a pair of surrogates.
Units that pair up are the same text written and read (`fromUtf16_encodeUtf16`,
`encodeUtf16_of_fromUtf16`).
-/

namespace Castaway

/-- The units of one scalar value. -/
def encodeUtf16Char (c : Char) : List UInt16 :=
  if c.toNat < 0x10000 then [UInt16.ofNat c.toNat]
  else [UInt16.ofNat (0xD800 + (c.toNat - 0x10000) / 0x400),
    UInt16.ofNat (0xDC00 + (c.toNat - 0x10000) % 0x400)]

def encodeUtf16 (chars : List Char) : List UInt16 := chars.flatMap encodeUtf16Char

/-- Read units as text, unless a surrogate stands alone. -/
def fromUtf16 : List UInt16 → Option (List Char)
  | [] => some []
  | u :: units =>
    if u.toNat < 0xD800 ∨ 0xDFFF < u.toNat then (fromUtf16 units).map (Char.ofNat u.toNat :: ·)
    else if 0xDC00 ≤ u.toNat then none
    else match units with
      | [] => none
      | u' :: units =>
        if 0xDC00 ≤ u'.toNat ∧ u'.toNat ≤ 0xDFFF then
          (fromUtf16 units).map
            (Char.ofNat (0x10000 + (u.toNat - 0xD800) * 0x400 + (u'.toNat - 0xDC00)) :: ·)
        else none

/-- A scalar value is none of the surrogates. -/
theorem toNat_char (c : Char) : c.toNat < 0xD800 ∨ 0xDFFF < c.toNat ∧ c.toNat < 0x110000 :=
  c.valid

theorem toNat_char_ofNat {n : ℕ} (h : n < 0xD800 ∨ 0xDFFF < n ∧ n < 0x110000) :
    (Char.ofNat n).toNat = n := by
  have hvalid : n.isValidChar := h
  rw [Char.ofNat, dif_pos hvalid]
  rfl

theorem toNat_uint16_ofNat {n : ℕ} (h : n < 0x10000) : (UInt16.ofNat n).toNat = n :=
  UInt16.toNat_ofNat_of_lt' h

/-- A unit that is no surrogate is read alone. -/
theorem fromUtf16_plain {u : UInt16} (h : u.toNat < 0xD800 ∨ 0xDFFF < u.toNat)
    (units : List UInt16) :
    fromUtf16 (u :: units) = (fromUtf16 units).map (Char.ofNat u.toNat :: ·) := by
  cases units <;> exact if_pos h

/-- A high surrogate is read together with the low one behind it. -/
theorem fromUtf16_pair {u u' : UInt16} (hlow : 0xD800 ≤ u.toNat) (hhigh : u.toNat < 0xDC00)
    (h : 0xDC00 ≤ u'.toNat ∧ u'.toNat ≤ 0xDFFF) (units : List UInt16) :
    fromUtf16 (u :: u' :: units) = (fromUtf16 units).map
      (Char.ofNat (0x10000 + (u.toNat - 0xD800) * 0x400 + (u'.toNat - 0xDC00)) :: ·) := by
  rw [fromUtf16, if_neg (by omega), if_neg (by omega), if_pos h]

/-- What reads as text begins with a scalar value. -/
theorem fromUtf16_cons {u : UInt16} {units : List UInt16} {chars : List Char}
    (h : fromUtf16 (u :: units) = some chars) :
    ∃ c rest units', u :: units = encodeUtf16Char c ++ units' ∧ chars = c :: rest ∧
      fromUtf16 units' = some rest := by
  by_cases hplain : u.toNat < 0xD800 ∨ 0xDFFF < u.toNat
  · rw [fromUtf16_plain hplain] at h
    obtain ⟨rest, hrest, rfl⟩ := Option.map_eq_some_iff.mp h
    have hlt : u.toNat < 0x10000 := u.toNat_lt
    have hvalue : (Char.ofNat u.toNat).toNat = u.toNat := toNat_char_ofNat (by omega)
    refine ⟨_, rest, units, ?_, rfl, hrest⟩
    rw [encodeUtf16Char, hvalue, if_pos hlt, UInt16.ofNat_toNat]
    rfl
  · cases units with
    | nil =>
      rw [fromUtf16, if_neg hplain] at h
      split at h <;> cases h
    | cons u' units =>
      by_cases hlow : 0xDC00 ≤ u.toNat
      · rw [fromUtf16, if_neg hplain, if_pos hlow] at h
        cases h
      · by_cases hpair : 0xDC00 ≤ u'.toNat ∧ u'.toNat ≤ 0xDFFF
        · rw [fromUtf16_pair (by omega) (by omega) hpair] at h
          obtain ⟨rest, hrest, rfl⟩ := Option.map_eq_some_iff.mp h
          obtain ⟨value, hvalue⟩ : ∃ value,
              value = 0x10000 + (u.toNat - 0xD800) * 0x400 + (u'.toNat - 0xDC00) := ⟨_, rfl⟩
          have hchar : (Char.ofNat value).toNat = value := toNat_char_ofNat (by omega)
          have hfirst : 0xD800 + (value - 0x10000) / 0x400 = u.toNat := by omega
          have hsecond : 0xDC00 + (value - 0x10000) % 0x400 = u'.toNat := by omega
          rw [← hvalue]
          refine ⟨_, rest, units, ?_, rfl, hrest⟩
          rw [encodeUtf16Char, hchar, if_neg (by omega), hfirst, hsecond, UInt16.ofNat_toNat,
            UInt16.ofNat_toNat]
          rfl
        · rw [fromUtf16, if_neg hplain, if_neg hlow, if_neg hpair] at h
          cases h

theorem encodeUtf16_cons (c : Char) (chars : List Char) :
    encodeUtf16 (c :: chars) = encodeUtf16Char c ++ encodeUtf16 chars :=
  List.flatMap_cons

/-- The units of a character are read as that character. -/
theorem fromUtf16_append (c : Char) (units : List UInt16) :
    fromUtf16 (encodeUtf16Char c ++ units) = (fromUtf16 units).map (c :: ·) := by
  have hc := toNat_char c
  by_cases hbmp : c.toNat < 0x10000
  · have hunit := toNat_uint16_ofNat hbmp
    rw [encodeUtf16Char, if_pos hbmp, List.singleton_append, fromUtf16_plain (by omega), hunit,
      Char.ofNat_toNat]
  · have hhigh : (UInt16.ofNat (0xD800 + (c.toNat - 0x10000) / 0x400)).toNat =
        0xD800 + (c.toNat - 0x10000) / 0x400 := toNat_uint16_ofNat (by omega)
    have hlow : (UInt16.ofNat (0xDC00 + (c.toNat - 0x10000) % 0x400)).toNat =
        0xDC00 + (c.toNat - 0x10000) % 0x400 := toNat_uint16_ofNat (by omega)
    have hvalue : 0x10000 + (0xD800 + (c.toNat - 0x10000) / 0x400 - 0xD800) * 0x400 +
        (0xDC00 + (c.toNat - 0x10000) % 0x400 - 0xDC00) = c.toNat := by omega
    rw [encodeUtf16Char, if_neg hbmp, List.cons_append, List.singleton_append,
      fromUtf16_pair (by omega) (by omega) (by omega), hhigh, hlow, hvalue, Char.ofNat_toNat]

/-- **Text that is written is read back.** -/
theorem fromUtf16_encodeUtf16 (chars : List Char) : fromUtf16 (encodeUtf16 chars) = some chars := by
  induction chars with
  | nil => rfl
  | cons c chars ih =>
    rw [encodeUtf16_cons, fromUtf16_append, ih]
    rfl

/-- **Units that are read are written again** as they were. -/
theorem encodeUtf16_of_fromUtf16 {units : List UInt16} {chars : List Char}
    (h : fromUtf16 units = some chars) : encodeUtf16 chars = units := by
  induction chars generalizing units with
  | nil =>
    cases units with
    | nil => rfl
    | cons u units =>
      obtain ⟨c, rest, units', -, hchars, -⟩ := fromUtf16_cons h
      cases hchars
  | cons c chars ih =>
    cases units with
    | nil => cases h
    | cons u units =>
      obtain ⟨c', rest, units', hunits, hchars, hrest⟩ := fromUtf16_cons h
      cases hchars
      rw [encodeUtf16_cons, ih hrest, hunits]

/-- Only NUL has a zero among its units. -/
theorem zero_mem_encodeUtf16_iff (chars : List Char) :
    0 ∈ encodeUtf16 chars ↔ Char.ofNat 0 ∈ chars := by
  have hone (c : Char) : 0 ∈ encodeUtf16Char c ↔ c = Char.ofNat 0 := by
    have hc := toNat_char c
    rw [encodeUtf16Char]
    split
    · rename_i hbmp
      rw [List.mem_singleton]
      constructor
      · intro h
        have hzero := congrArg UInt16.toNat h
        rw [toNat_uint16_ofNat hbmp] at hzero
        rw [← Char.ofNat_toNat c, ← hzero]
        rfl
      · rintro rfl
        rfl
    · rename_i hbmp
      have hhigh : (UInt16.ofNat (0xD800 + (c.toNat - 0x10000) / 0x400)).toNat =
          0xD800 + (c.toNat - 0x10000) / 0x400 := toNat_uint16_ofNat (by omega)
      have hlow : (UInt16.ofNat (0xDC00 + (c.toNat - 0x10000) % 0x400)).toNat =
          0xDC00 + (c.toNat - 0x10000) % 0x400 := toNat_uint16_ofNat (by omega)
      constructor
      · intro h
        rcases List.mem_cons.mp h with h | h
        · have hzero := congrArg UInt16.toNat h
          rw [hhigh] at hzero
          simp only [UInt16.toNat_zero] at hzero
          omega
        · have hzero := congrArg UInt16.toNat (List.mem_singleton.mp h)
          rw [hlow] at hzero
          simp only [UInt16.toNat_zero] at hzero
          omega
      · rintro rfl
        exact absurd (by decide) hbmp
  simp only [encodeUtf16, List.mem_flatMap, hone, exists_eq_right]

theorem encodeUtf16_eq_nil_iff (chars : List Char) : encodeUtf16 chars = [] ↔ chars = [] := by
  constructor
  · intro h
    have hread := fromUtf16_encodeUtf16 chars
    rw [h] at hread
    exact (Option.some.inj hread).symm
  · rintro rfl
    rfl

end Castaway
