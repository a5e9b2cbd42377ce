import Castaway.Dlna.Renderer
import Castaway.Lib.Checked

/-!
# UPnP times

`parseUpnpTimeChecked` is `parseUpnpTime` with every sum, product and difference
checked; where nothing overflows they agree (`parseUpnpTime_of_checked`).  A
`TimeText` is a text of the grammar `H+:MM:SS[.F+]`, and it is read to the
millisecond (`parse_timeText`); `upnpTime` writes such texts.
-/

namespace Castaway.Dlna

open Castaway.AirPlay (Text)
open List

/-! ## Digits -/

/-- One decimal digit or more. -/
def Digits (t : Text) : Prop := t ≠ [] ∧ ∀ c ∈ t, c.isDigit

/-- The number a text of digits spells. -/
def value (t : Text) : ℕ := Nat.ofDigitChars 10 t 0

theorem foldl_eq_value (t : Text) :
    t.foldl (fun n c => n * 10 + (c.toNat - '0'.toNat)) 0 = value t := by
  rw [value, Nat.ofDigitChars_eq_foldl]
  congr 1
  funext n c
  rw [Nat.mul_comm]

theorem value_append (s t : Text) : value (s ++ t) = value s * 10 ^ t.length + value t := by
  rw [value, Nat.ofDigitChars_append, Nat.ofDigitChars_eq_ofDigitChars_zero, Nat.mul_comm]
  rfl

variable {t : Text}

theorem value_lt (h : ∀ c ∈ t, c.isDigit) : value t < 10 ^ t.length := by
  induction t with
  | nil => decide
  | cons c t ih =>
    have htail := ih fun d hd => h d (mem_cons_of_mem c hd)
    have hdigit : value [c] ≤ 9 := by
      obtain ⟨-, hle⟩ := Char.isDigit_iff_toNat.mp (h c mem_cons_self)
      change c.toNat ≤ 57 at hle
      rw [value, Nat.ofDigitChars_cons, Nat.ofDigitChars_nil]
      change 10 * 0 + (c.toNat - 48) ≤ 9
      omega
    have hhead := Nat.mul_le_mul_right (10 ^ t.length) hdigit
    rw [← singleton_append, value_append, length_append, length_singleton,
      Nat.add_comm 1, Nat.pow_succ]
    omega

/-- The digits behind an optional plus. -/
def unsignedDigits (t : Text) : Text := (Text.after? ['+'] t).getD t

theorem unsignedDigits_of_ne {c : Char} (h : c ≠ '+') (t : Text) :
    unsignedDigits (c :: t) = c :: t := by
  have hsign : ['+'].isPrefixOf (c :: t) = false := by
    rw [isPrefixOf_cons_cons, beq_false_of_ne h.symm, Bool.false_and]
  rw [unsignedDigits, Text.after?, hsign]
  rfl

theorem unsignedDigits_of_digits (h : Digits t) : unsignedDigits t = t := by
  cases t with
  | nil => exact absurd rfl h.1
  | cons c t =>
    apply unsignedDigits_of_ne
    rintro rfl
    exact absurd (h.2 '+' mem_cons_self) (by decide)

theorem eq_unsignedDigits (t : Text) : t = unsignedDigits t ∨ t = '+' :: unsignedDigits t := by
  cases t with
  | nil => exact .inl rfl
  | cons c t =>
    by_cases hplus : c = '+'
    · subst hplus
      exact .inr rfl
    · exact .inl (unsignedDigits_of_ne hplus t).symm

theorem digits_iff : (t.isEmpty || t.any fun c => !c.isDigit) = false ↔ Digits t := by
  rw [Bool.or_eq_false_iff, isEmpty_eq_false_iff, any_eq_false, Digits]
  simp only [Bool.not_eq_true', Bool.not_eq_false]

/-- `str::parse` reads digits that fit, behind a plus or not. -/
theorem unsigned_eq_some_iff {bits n : ℕ} : Text.unsigned bits t = some n ↔
    Digits (unsignedDigits t) ∧ value (unsignedDigits t) = n ∧ n < 2 ^ bits := by
  unfold Text.unsigned
  rw [← unsignedDigits]
  dsimp only
  rw [foldl_eq_value]
  generalize unsignedDigits t = ds
  cases htest : ds.isEmpty || ds.any fun c => !c.isDigit with
  | true =>
    rw [if_pos rfl]
    constructor
    · intro h
      cases h
    · rintro ⟨hdigits, -⟩
      rw [digits_iff.mpr hdigits] at htest
      cases htest
  | false =>
    rw [if_neg Bool.false_ne_true]
    constructor
    · intro h
      split at h
      · next hlt =>
          cases h
          exact ⟨digits_iff.mp htest, rfl, hlt⟩
      · cases h
    · rintro ⟨-, rfl, hlt⟩
      exact if_pos hlt

/-- What `str::parse` takes: digits, after at most one plus sign. -/
theorem unsigned_eq_some {bits n : ℕ} : Text.unsigned bits t = some n ↔
    ∃ ds, Digits ds ∧ (t = ds ∨ t = '+' :: ds) ∧ value ds = n ∧ n < 2 ^ bits := by
  rw [unsigned_eq_some_iff]
  constructor
  · rintro ⟨hdigits, hvalue, hlt⟩
    exact ⟨unsignedDigits t, hdigits, eq_unsignedDigits t, hvalue, hlt⟩
  · rintro ⟨ds, hdigits, rfl | rfl, hvalue, hlt⟩
    · rw [unsignedDigits_of_digits hdigits]
      exact ⟨hdigits, hvalue, hlt⟩
    · exact ⟨hdigits, hvalue, hlt⟩

theorem unsigned_of_digits (h : Digits t) {bits : ℕ} (hfits : value t < 2 ^ bits) :
    Text.unsigned bits t = some (value t) :=
  unsigned_eq_some.mpr ⟨t, h, .inl rfl, rfl, hfits⟩

theorem not_white_of_isDigit {c : Char} (h : c.isDigit) : Text.isWhite c = false := by
  obtain ⟨hlow, hhigh⟩ := Char.isDigit_iff_toNat.mp h
  change 48 ≤ c.toNat at hlow
  change c.toNat ≤ 57 at hhigh
  simp only [Text.isWhite, Bool.or_eq_false_iff, Bool.and_eq_false_iff, decide_eq_false_iff_not]
  omega

/-! ## With the arithmetic checked -/

/-- What a digit after the point counts for, the number of digits being taken in
bytes. -/
def scaleOf (digits : Text) : Except Overflow ℕ := do
  let exponent ← checkedSub 3 (digits.map Char.utf8Size).sum
  pure (10 ^ exponent)

/-- The seconds and their thousandths, with the power of ten checked. -/
def secondsOfChecked (part : Text) : Except Overflow (Option (ℕ × ℕ)) :=
  match part.splitOn '.' with
  | [] => pure none
  | [whole] => pure ((Text.unsigned 64 whole).map fun n => (n, 0))
  | whole :: fraction =>
    let digits := (List.intercalate ['.'] fraction).take 3
    match Text.unsigned 64 whole with
    | none => pure none
    | some n => do
        -- the scale is computed before the digits are parsed
        let scale ← scaleOf digits
        match Text.unsigned 64 digits with
        | none => pure none
        | some millis => do
            let millis ← checkedMul millis scale
            pure (some (n, millis))

/-- The milliseconds of a time, as the source sums them up. -/
def totalOf (h m secs millis : ℕ) : Except Overflow ℕ := do
  let hours ← checkedMul h 3600
  let minutes ← checkedMul m 60
  let whole ← checkedAdd hours minutes
  let whole ← checkedAdd whole secs
  let whole ← checkedMul whole 1000
  checkedAdd whole millis

/-- `parse_upnp_time`, when an overflow ends it. -/
def parseUpnpTimeChecked (s : String) : Except Overflow (Option Duration) :=
  match (Text.trim s.toList).splitOn ':' with
  | [h, m, sec] =>
    match Text.unsigned 64 h, Text.unsigned 64 m with
    | some h, some m => do
        match ← secondsOfChecked sec with
        | none => pure none
        | some (secs, millis) =>
          if 60 ≤ m ∨ 60 ≤ secs then pure none
          else do
            let total ← totalOf h m secs millis
            pure (some (total * 1000000))
    | _, _ => pure none
  | _ => pure none

/-- The sum is exact where it fits. -/
theorem totalOf_eq_ok {h m secs millis total : ℕ} : totalOf h m secs millis = .ok total ↔
    total = (h * 3600 + m * 60 + secs) * 1000 + millis ∧ total < 2 ^ 64 := by
  simp only [totalOf, bind_eq_ok, checkedMul_eq_ok, checkedAdd_eq_ok]
  constructor
  · rintro ⟨_, ⟨rfl, -⟩, _, ⟨rfl, -⟩, _, ⟨rfl, -⟩, _, ⟨rfl, -⟩, _, ⟨rfl, -⟩, rfl, hlt⟩
    exact ⟨rfl, hlt⟩
  · rintro ⟨rfl, hlt⟩
    refine ⟨h * 3600, ⟨rfl, ?_⟩, m * 60, ⟨rfl, ?_⟩, h * 3600 + m * 60, ⟨rfl, ?_⟩,
      h * 3600 + m * 60 + secs, ⟨rfl, ?_⟩, (h * 3600 + m * 60 + secs) * 1000, ⟨rfl, ?_⟩, rfl, hlt⟩
    all_goals
      apply Nat.lt_of_le_of_lt ?_ hlt
      omega

theorem utf8Size_of_isDigit {c : Char} (h : c.isDigit) : c.utf8Size = 1 := by
  obtain ⟨-, hle⟩ := Char.isDigit_iff_toNat.mp h
  rw [Char.utf8Size_eq_one_iff]
  rw [UInt32.le_iff_toNat_le]
  exact hle.trans (by decide)

/-- A number is written with characters of one byte. -/
theorem sum_utf8Size_of_unsigned {bits n : ℕ} (h : Text.unsigned bits t = some n) :
    (t.map Char.utf8Size).sum = t.length := by
  have hdigits : ∀ ds : Text, (∀ c ∈ ds, c.isDigit) → (ds.map Char.utf8Size).sum = ds.length := by
    intro ds hds
    induction ds with
    | nil => rfl
    | cons c ds ih =>
      rw [map_cons, sum_cons, ih fun d hd => hds d (mem_cons_of_mem c hd),
        utf8Size_of_isDigit (hds c mem_cons_self), length_cons, Nat.add_comm]
  obtain ⟨ds, ⟨-, hds⟩, rfl | rfl, -⟩ := unsigned_eq_some.mp h
  · exact hdigits t hds
  · rw [map_cons, sum_cons, hdigits ds hds, length_cons, Nat.add_comm]
    rfl

/-- Where nothing overflows, the seconds are those of the plain function. -/
theorem secondsOf_of_checked {part : Text} {r : Option (ℕ × ℕ)}
    (h : secondsOfChecked part = .ok r) : secondsOf part = r := by
  unfold secondsOfChecked at h
  unfold secondsOf
  generalize part.splitOn '.' = pieces at h ⊢
  rcases pieces with _ | ⟨whole, _ | ⟨second, fraction⟩⟩
  · cases h
    rfl
  · cases h
    rfl
  dsimp only at h ⊢
  generalize (List.intercalate ['.'] (second :: fraction)).take 3 = digits at h ⊢
  cases hwhole : Text.unsigned 64 whole with
  | none =>
    rw [hwhole] at h
    cases h
    rfl
  | some n =>
    rw [hwhole] at h
    obtain ⟨scale, hscale, h⟩ := bind_eq_ok.mp h
    cases hdigits : Text.unsigned 64 digits with
    | none =>
      rw [hdigits] at h
      cases h
      rfl
    | some millis =>
      rw [hdigits] at h
      obtain ⟨exponent, hexponent, hpow⟩ := bind_eq_ok.mp hscale
      rw [sum_utf8Size_of_unsigned hdigits, checkedSub_eq_ok] at hexponent
      obtain ⟨scaled, hscaled, h⟩ := bind_eq_ok.mp h
      obtain ⟨rfl, -⟩ := checkedMul_eq_ok.mp hscaled
      have hthree : 3 - digits.length = exponent := by omega
      cases hpow
      cases h
      dsimp only
      rw [hthree]

/-- Where nothing overflows, the plain function gives the same. -/
theorem parseUpnpTime_of_checked {s : String} {r : Option Duration}
    (h : parseUpnpTimeChecked s = .ok r) : parseUpnpTime s = r := by
  unfold parseUpnpTimeChecked at h
  unfold parseUpnpTime
  generalize (Text.trim s.toList).splitOn ':' = fields at h ⊢
  rcases fields with _ | ⟨hours, _ | ⟨minutes, _ | ⟨sec, _ | ⟨fourth, rest⟩⟩⟩⟩
  · cases h
    rfl
  · cases h
    rfl
  · cases h
    rfl
  · dsimp only at h ⊢
    cases hhours : Text.unsigned 64 hours with
    | none =>
      rw [hhours] at h
      cases h
      rfl
    | some hh =>
      cases hminutes : Text.unsigned 64 minutes with
      | none =>
        rw [hhours, hminutes] at h
        cases h
        rfl
      | some mm =>
        rw [hhours, hminutes] at h
        obtain ⟨seconds, hseconds, h⟩ := bind_eq_ok.mp h
        rw [secondsOf_of_checked hseconds]
        rcases seconds with _ | ⟨secs, millis⟩
        · cases h
          rfl
        · dsimp only at h ⊢
          by_cases hsixty : 60 ≤ mm ∨ 60 ≤ secs
          · rw [if_pos hsixty] at h ⊢
            cases h
            rfl
          · rw [if_neg hsixty] at h ⊢
            obtain ⟨total, htotal, h⟩ := bind_eq_ok.mp h
            obtain ⟨rfl, hlt⟩ := totalOf_eq_ok.mp htotal
            cases h
            rw [Nat.mod_eq_of_lt hlt]
  · cases h
    rfl

/-! ## The grammar -/

/-- A text `H+:MM:SS[.F+]`. -/
structure TimeText where
  hours : Text
  minutes : Text
  seconds : Text
  fraction : Option Text
  hours_digits : Digits hours
  minutes_digits : minutes.length = 2 ∧ ∀ c ∈ minutes, c.isDigit
  minutes_lt : value minutes < 60
  seconds_digits : seconds.length = 2 ∧ ∀ c ∈ seconds, c.isDigit
  seconds_lt : value seconds < 60
  fraction_digits : ∀ digits, fraction = some digits → Digits digits

namespace TimeText

variable (t : TimeText)

def sec : Text := t.seconds ++ (t.fraction.map ('.' :: ·)).getD []

def text : Text := t.hours ++ ':' :: (t.minutes ++ ':' :: t.sec)

def whole : ℕ := value t.hours * 3600 + value t.minutes * 60 + value t.seconds

def millis : ℕ :=
  t.whole * 1000 +
    (t.fraction.map fun digits => value digits * 1000 / 10 ^ digits.length).getD 0

end TimeText

theorem digits_of_length_two (h : t.length = 2 ∧ ∀ c ∈ t, c.isDigit) : Digits t :=
  ⟨fun hnil => by rw [hnil] at h; exact absurd h.1 (by decide), h.2⟩

/-- Three digits of a fraction and their scale are its milliseconds. -/
theorem value_take_three {digits : Text} (h : Digits digits) :
    value (digits.take 3) * 10 ^ (3 - (digits.take 3).length) =
      value digits * 1000 / 10 ^ digits.length := by
  rcases Nat.le_total digits.length 3 with hshort | hlong
  · rw [take_of_length_le hshort]
    have hscale : 1000 = 10 ^ (3 - digits.length) * 10 ^ digits.length := by
      rw [← Nat.pow_add, Nat.sub_add_cancel hshort]
    rw [hscale, ← Nat.mul_assoc, Nat.mul_div_cancel _ (Nat.pow_pos (by decide))]
  · have hlength : (digits.take 3).length = 3 := by
      rw [length_take]
      omega
    have hrest : value (digits.drop 3) < 10 ^ (digits.drop 3).length :=
      value_lt fun c hc => h.2 c (mem_of_mem_drop hc)
    have hwidth : 10 ^ digits.length = 1000 * 10 ^ (digits.drop 3).length := by
      rw [length_drop, show (1000 : ℕ) = 10 ^ 3 from rfl, ← Nat.pow_add]
      congr 1
      omega
    have hvalue : value digits =
        10 ^ (digits.drop 3).length * value (digits.take 3) + value (digits.drop 3) := by
      rw [Nat.mul_comm, ← value_append, take_append_drop]
    rw [hlength, hwidth, Nat.mul_comm _ 1000, Nat.mul_div_mul_left _ _ (by decide : 0 < 1000),
      hvalue, Nat.mul_add_div (Nat.pow_pos (by decide)), Nat.div_eq_of_lt hrest]
    exact Nat.mul_one _

/-- Trimming takes the padding off, and nothing else. -/
theorem trim_padded {before after : Text} (hbefore : ∀ c ∈ before, Text.isWhite c)
    (hafter : ∀ c ∈ after, Text.isWhite c) (hfirst : ∀ c ∈ t.head?, Text.isWhite c = false)
    (hlast : ∀ c ∈ t.reverse.head?, Text.isWhite c = false) (hne : t ≠ []) :
    Text.trim (before ++ t ++ after) = t := by
  have hstop : ∀ s rest : Text, s ≠ [] → (∀ c ∈ s.head?, Text.isWhite c = false) →
      Text.trimStart (s ++ rest) = s ++ rest := by
    intro s rest hs hhead
    cases s with
    | nil => exact absurd rfl hs
    | cons c s =>
      have hc := hhead c rfl
      rw [Text.trimStart, cons_append, dropWhile_cons_of_neg (by simp [hc])]
  have hfront : Text.trimStart (before ++ t ++ after) = t ++ after := by
    rw [append_assoc, Text.trimStart, dropWhile_append_of_pos hbefore]
    exact hstop t after hne hfirst
  have hback : Text.trimStart (t ++ after).reverse = t.reverse := by
    rw [reverse_append, Text.trimStart,
      dropWhile_append_of_pos fun c hc => hafter c (mem_reverse.mp hc)]
    have := hstop t.reverse [] (by simpa using hne) hlast
    rwa [append_nil] at this
  rw [Text.trim, hfront, hback, reverse_reverse]

namespace TimeText

variable (t : TimeText)

theorem not_mem_of_digits {s : Text} (h : ∀ c ∈ s, c.isDigit) {c : Char} (hc : c.isDigit = false) :
    c ∉ s := fun hmem => by
  rw [h c hmem] at hc
  cases hc

theorem secondsOfChecked_sec : secondsOfChecked t.sec =
    .ok (some (value t.seconds,
      (t.fraction.map fun digits => value digits * 1000 / 10 ^ digits.length).getD 0)) := by
  have hseconds := digits_of_length_two t.seconds_digits
  have hpoint : '.' ∉ t.seconds := not_mem_of_digits t.seconds_digits.2 (by decide)
  have hwhole : Text.unsigned 64 t.seconds = some (value t.seconds) :=
    unsigned_of_digits hseconds (t.seconds_lt.trans (by decide))
  unfold secondsOfChecked sec
  cases hfraction : t.fraction with
  | none =>
    rw [Option.map_none, Option.getD_none, append_nil, splitOn_eq_singleton hpoint]
    dsimp only
    rw [hwhole]
    rfl
  | some digits =>
    have hdigits := t.fraction_digits digits hfraction
    have hpoint' : '.' ∉ digits := not_mem_of_digits hdigits.2 (by decide)
    have htake : Digits (digits.take 3) := by
      refine ⟨fun hnil => hdigits.1 ?_, fun c hc => hdigits.2 c (mem_of_mem_take hc)⟩
      cases digits with
      | nil => rfl
      | cons c digits => cases hnil
    have hlength : (digits.take 3).length ≤ 3 := by
      rw [length_take]
      exact Nat.min_le_left _ _
    have hsmall : value (digits.take 3) < 1000 :=
      (value_lt htake.2).trans_le (Nat.pow_le_pow_right (by decide) hlength)
    have hparsed : Text.unsigned 64 (digits.take 3) = some (value (digits.take 3)) :=
      unsigned_of_digits htake (hsmall.trans (by decide))
    have hscaled : value (digits.take 3) * 10 ^ (3 - (digits.take 3).length) < 2 ^ 64 := by
      have hpow : 10 ^ (3 - (digits.take 3).length) ≤ 10 ^ 3 :=
        Nat.pow_le_pow_right (by decide) (Nat.sub_le _ _)
      calc value (digits.take 3) * 10 ^ (3 - (digits.take 3).length)
          ≤ 1000 * 10 ^ 3 := Nat.mul_le_mul hsmall.le hpow
        _ < 2 ^ 64 := by decide
    rw [Option.map_some, Option.getD_some, splitOn_append_cons_self_of_not_mem hpoint,
      splitOn_eq_singleton hpoint']
    have hjoined : List.intercalate ['.'] [digits] = digits := by simp
    dsimp only
    have hscale : scaleOf (digits.take 3) = .ok (10 ^ (3 - (digits.take 3).length)) := by
      rw [scaleOf, sum_utf8Size_of_unsigned hparsed, checkedSub_of_le hlength]
      rfl
    rw [hwhole, hjoined]
    dsimp only
    rw [hscale, ok_bind, hparsed]
    dsimp only
    rw [checkedMul_eq_ok.mpr ⟨rfl, hscaled⟩, value_take_three hdigits]
    rfl

/-- The text comes apart at its two colons. -/
theorem text_splitOn : t.text.splitOn ':' = [t.hours, t.minutes, t.sec] := by
  have hsec : ':' ∉ t.sec := by
    have hseconds : ':' ∉ t.seconds := not_mem_of_digits t.seconds_digits.2 (by decide)
    rw [sec, mem_append, not_or]
    refine ⟨hseconds, ?_⟩
    cases hfraction : t.fraction with
    | none => exact not_mem_nil
    | some digits =>
      have hdigits : ':' ∉ digits :=
        not_mem_of_digits (t.fraction_digits digits hfraction).2 (by decide)
      rw [Option.map_some, Option.getD_some, mem_cons, not_or]
      exact ⟨by decide, hdigits⟩
  rw [text,
    splitOn_append_cons_self_of_not_mem (not_mem_of_digits t.hours_digits.2 (by decide)),
    splitOn_append_cons_self_of_not_mem (not_mem_of_digits t.minutes_digits.2 (by decide)),
    splitOn_eq_singleton hsec]

theorem head_text : ∀ c ∈ t.text.head?, Text.isWhite c = false := by
  intro c hc
  obtain ⟨hne, hdigits⟩ := t.hours_digits
  rw [text, head?_append_of_ne_nil _ hne] at hc
  exact not_white_of_isDigit (hdigits c (mem_of_mem_head? hc))

theorem exists_last_digits : ∃ front digits, Digits digits ∧ t.text = front ++ digits := by
  cases hfraction : t.fraction with
  | none =>
    refine ⟨t.hours ++ ':' :: (t.minutes ++ [':']), t.seconds,
      digits_of_length_two t.seconds_digits, ?_⟩
    simp [text, sec, hfraction]
  | some digits =>
    refine ⟨t.hours ++ ':' :: (t.minutes ++ ':' :: (t.seconds ++ ['.'])), digits,
      t.fraction_digits digits hfraction, ?_⟩
    simp [text, sec, hfraction]

theorem last_text : ∀ c ∈ t.text.reverse.head?, Text.isWhite c = false := by
  intro c hc
  obtain ⟨front, digits, ⟨hne, hdigits⟩, htext⟩ := t.exists_last_digits
  rw [htext, reverse_append,
    head?_append_of_ne_nil _ (mt reverse_eq_nil_iff.mp hne)] at hc
  exact not_white_of_isDigit (hdigits c (mem_reverse.mp (mem_of_mem_head? hc)))

theorem text_ne_nil : t.text ≠ [] :=
  fun h => t.hours_digits.1 (append_eq_nil_iff.mp h).1

/-- A text of the grammar is read to the millisecond, and nothing overflows. -/
theorem parse_text {before after : Text} (hbefore : ∀ c ∈ before, Text.isWhite c)
    (hafter : ∀ c ∈ after, Text.isWhite c) (hfits : t.millis < 2 ^ 64) :
    parseUpnpTimeChecked (String.ofList (before ++ t.text ++ after)) =
      .ok (some (t.millis * 1000000)) := by
  have hwhole : t.whole ≤ t.millis := by
    rw [millis]
    omega
  have hhours : Text.unsigned 64 t.hours = some (value t.hours) := by
    apply unsigned_of_digits t.hours_digits
    rw [whole] at hwhole
    omega
  have hminutes : Text.unsigned 64 t.minutes = some (value t.minutes) :=
    unsigned_of_digits (digits_of_length_two t.minutes_digits) (t.minutes_lt.trans (by decide))
  have hclock : ¬ (60 ≤ value t.minutes ∨ 60 ≤ value t.seconds) := by
    have := t.minutes_lt
    have := t.seconds_lt
    omega
  unfold parseUpnpTimeChecked
  rw [String.toList_ofList, trim_padded hbefore hafter t.head_text t.last_text t.text_ne_nil,
    t.text_splitOn]
  dsimp only
  rw [hhours, hminutes]
  dsimp only
  rw [t.secondsOfChecked_sec, ok_bind]
  dsimp only
  rw [if_neg hclock, totalOf_eq_ok.mpr ⟨rfl, hfits⟩]
  rfl

end TimeText

/-! ## What is written -/

def twoDigits (n : ℕ) : String := if n < 10 then "0" ++ toString n else toString n

theorem digits_toString (n : ℕ) : Digits (toString n).toList ∧ value (toString n).toList = n := by
  rw [Nat.toString_eq_repr, Nat.toList_repr]
  exact ⟨⟨Nat.toDigits_ne_nil, fun c => Nat.isDigit_of_mem_toDigits (by decide) (by decide)⟩,
    Nat.ofDigitChars_toDigits (by decide) (by decide)⟩

theorem length_toString_le {n k : ℕ} (hk : 0 < k) :
    (toString n).toList.length ≤ k ↔ n < 10 ^ k := by
  rw [Nat.toString_eq_repr, Nat.toList_repr]
  exact Nat.length_toDigits_le_iff (by decide) hk

/-- Minutes and seconds are written in two digits. -/
theorem twoDigits_spec (n : ℕ) (h : n < 60) : ((twoDigits n).toList.length = 2 ∧
    ∀ c ∈ (twoDigits n).toList, c.isDigit) ∧ value (twoDigits n).toList = n := by
  obtain ⟨⟨hnonempty, hdigits⟩, hvalue⟩ := digits_toString n
  have hlength := length_pos_iff.mpr hnonempty
  have hone := @length_toString_le n 1 (by decide)
  have htwo := @length_toString_le n 2 (by decide)
  unfold twoDigits
  by_cases hsmall : n < 10
  · have hpadded : ("0" ++ toString n).toList = '0' :: (toString n).toList := by
      rw [String.toList_append]
      rfl
    rw [if_pos hsmall, hpadded]
    refine ⟨⟨?_, fun c hc => ?_⟩, ?_⟩
    · rw [length_cons]
      omega
    · rcases mem_cons.mp hc with rfl | hc
      · rfl
      · exact hdigits c hc
    · have hzero : value ['0'] = 0 := rfl
      rw [← singleton_append, value_append, hvalue, hzero]
      omega
  · rw [if_neg hsmall]
    exact ⟨⟨by omega, hdigits⟩, hvalue⟩

def timeTextOf (seconds : ℕ) : TimeText where
  hours := (toString (seconds / 3600)).toList
  minutes := (twoDigits (seconds % 3600 / 60)).toList
  seconds := (twoDigits (seconds % 60)).toList
  fraction := none
  hours_digits := (digits_toString _).1
  minutes_digits := (twoDigits_spec _ (by omega)).1
  minutes_lt := by
    rw [(twoDigits_spec _ (by omega)).2]
    omega
  seconds_digits := (twoDigits_spec _ (by omega)).1
  seconds_lt := by
    rw [(twoDigits_spec _ (by omega)).2]
    omega
  fraction_digits := fun _ h => by cases h

theorem upnpTime_eq (d : Duration) :
    upnpTime d = String.ofList (timeTextOf (d / 1000000000)).text := by
  rw [← String.toList_inj, String.toList_ofList]
  change (toString (d / 1000000000 / 3600) ++ ":" ++ twoDigits (d / 1000000000 % 3600 / 60) ++
    ":" ++ twoDigits (d / 1000000000 % 60)).toList = _
  simp only [String.toList_append, TimeText.text, TimeText.sec, timeTextOf, Option.map_none,
    Option.getD_none, append_nil, append_assoc]
  rfl

theorem millis_timeTextOf (seconds : ℕ) : (timeTextOf seconds).millis = seconds * 1000 := by
  have hhours := (digits_toString (seconds / 3600)).2
  have hminutes := (twoDigits_spec (seconds % 3600 / 60) (by omega)).2
  have hseconds := (twoDigits_spec (seconds % 60) (by omega)).2
  change (value (toString (seconds / 3600)).toList * 3600 +
    value (twoDigits (seconds % 3600 / 60)).toList * 60 +
    value (twoDigits (seconds % 60)).toList) * 1000 + 0 = _
  rw [hhours, hminutes, hseconds]
  omega

/-! ## The result -/

/-- What is accepted: three fields that are numbers, the last with a fraction
perhaps, of which the first three characters count. -/
def Reads (s : Text) (d : Duration) : Prop :=
  ∃ (hours minutes sec : Text) (h m secs millis : ℕ),
    Text.trim s = hours ++ ':' :: (minutes ++ ':' :: sec) ∧
    Text.unsigned 64 hours = some h ∧ Text.unsigned 64 minutes = some m ∧ m < 60 ∧
    secondsOf sec = some (secs, millis) ∧ secs < 60 ∧
    d = ((h * 3600 + m * 60 + secs) * 1000 + millis) * 1000000

theorem reads_of_checked {s : String} {d : Duration}
    (h : parseUpnpTimeChecked s = .ok (some d)) : Reads s.toList d := by
  have hjoined := @intercalate_splitOn _ (Text.trim s.toList) _ _ ':'
  unfold parseUpnpTimeChecked at h
  generalize (Text.trim s.toList).splitOn ':' = fields at h hjoined
  rcases fields with _ | ⟨hours, _ | ⟨minutes, _ | ⟨sec, _ | ⟨fourth, rest⟩⟩⟩⟩
  · cases h
  · cases h
  · cases h
  · dsimp only at h
    cases hhours : Text.unsigned 64 hours with
    | none =>
      rw [hhours] at h
      cases h
    | some hh =>
      cases hminutes : Text.unsigned 64 minutes with
      | none =>
        rw [hhours, hminutes] at h
        cases h
      | some mm =>
        rw [hhours, hminutes] at h
        obtain ⟨seconds, hseconds, h⟩ := bind_eq_ok.mp h
        have hplain := secondsOf_of_checked hseconds
        rcases seconds with _ | ⟨secs, millis⟩
        · cases h
        · dsimp only at h
          by_cases hsixty : 60 ≤ mm ∨ 60 ≤ secs
          · rw [if_pos hsixty] at h
            cases h
          · rw [if_neg hsixty] at h
            obtain ⟨total, htotal, h⟩ := bind_eq_ok.mp h
            obtain ⟨rfl, -⟩ := totalOf_eq_ok.mp htotal
            cases h
            refine ⟨hours, minutes, sec, hh, mm, secs, millis, ?_, hhours, hminutes,
              by omega, hplain, by omega, rfl⟩
            rw [← hjoined]
            simp
  · cases h

/-- Times are written and read back; every text of the grammar is read to the
millisecond, without an overflow as long as 64 bits hold it; and what is read,
where nothing overflows, is three fields of numbers. -/
theorem parseUpnpTime_reads : (∀ d : Duration, d / 1000000 < 2 ^ 64 →
      parseUpnpTimeChecked (upnpTime d) = .ok (some (d / 1000000000 * 1000000000))) ∧
    (∀ (t : TimeText) (before after : Text), (∀ c ∈ before, Text.isWhite c) →
      (∀ c ∈ after, Text.isWhite c) → t.millis < 2 ^ 64 →
      parseUpnpTimeChecked (String.ofList (before ++ t.text ++ after)) =
        .ok (some (t.millis * 1000000))) ∧
    ∀ (s : String) (r : Option Duration), parseUpnpTimeChecked s = .ok r →
      parseUpnpTime s = r ∧ ∀ d, r = some d → Reads s.toList d := by
  refine ⟨fun d hd => ?_, fun t before after hbefore hafter hfits => ?_, fun s r h => ⟨?_, ?_⟩⟩
  · have hfits : (timeTextOf (d / 1000000000)).millis < 2 ^ 64 := by
      rw [millis_timeTextOf]
      apply Nat.lt_of_le_of_lt ?_ hd
      omega
    have hread := (timeTextOf (d / 1000000000)).parse_text
      (forall_mem_nil _) (forall_mem_nil _) hfits
    rw [nil_append, append_nil, ← upnpTime_eq, millis_timeTextOf, Nat.mul_assoc] at hread
    exact hread
  · exact t.parse_text hbefore hafter hfits
  · exact parseUpnpTime_of_checked h
  · rintro d rfl
    exact reads_of_checked h

/-- The fourth digit of a fraction is not read, and numbers of one digit are. -/
theorem parseUpnpTime_truncates : parseUpnpTimeChecked "0:00:01.5559" = .ok (some 1555000000) ∧
      parseUpnpTimeChecked "1:2:3" = .ok (some 3723000000000) := by
  decide +kernel

end Castaway.Dlna
