import Mathlib

/-!
# Doubles as exact numbers

A double is taken as the number it stands for, without rounding: a rational, one
of the two infinities, or NaN.  `Duration` is a length of time as Rust's
standard library has it, in seconds; making one of a double, or scaling one by a
double, fails with a `Panic` when the result is no length of time.

A number of seconds is floored at zero and then made a `Duration` in more than
one place; `fromSecs_floor_iff` says when that gives the position it stands for.
-/

namespace Castaway

inductive F64 where
  | nan
  | posInf
  | negInf
  | real (x : ℚ)
  deriving DecidableEq

namespace F64

/-! ## Operations -/

/-- `f64::max`, which gives the other number when one is a NaN. -/
def max : F64 → F64 → F64
  | nan, y => y
  | x, nan => x
  | posInf, _ => posInf
  | _, posInf => posInf
  | negInf, y => y
  | x, negInf => x
  | real x, real y => real (Max.max x y)

/-- `<=`, which is never true of a NaN. -/
def le : F64 → F64 → Bool
  | nan, _ => false
  | _, nan => false
  | negInf, _ => true
  | _, posInf => true
  | posInf, _ => false
  | _, negInf => false
  | real x, real y => x ≤ y

/-- `<`. -/
def lt (x y : F64) : Bool := le x y && !le y x

/-- `f64::clamp`, which a NaN goes through as it is. -/
def clamp (x low high : F64) : F64 :=
  let x := if lt x low then low else x
  if lt high x then high else x

/-- The product of a number that is not negative and a double. -/
def scale (a : ℚ) : F64 → F64
  | nan => nan
  | posInf => if a = 0 then nan else posInf
  | negInf => if a = 0 then nan else negInf
  | real x => real (a * x)

theorem clamp_real {x : ℚ} (h : 0 ≤ x) : clamp (real x) (real 0) (real 1) = real (min x 1) := by
  have hlow : lt (real x) (real 0) = false := by simp [lt, le, h]
  rw [clamp, hlow]
  by_cases hhigh : x ≤ 1
  · simp [lt, le, hhigh]
  · simp [lt, le, hhigh, le_of_not_ge hhigh]

/-! ## Texts -/

def sign : List Char → Bool × List Char
  | '-' :: t => (true, t)
  | '+' :: t => (false, t)
  | t => (false, t)

def digits (t : List Char) : ℕ := t.foldl (fun n c => n * 10 + (c.toNat - '0'.toNat)) 0

/-- What follows the digits of a number: nothing, or an exponent. -/
def exponent : List Char → Option ℤ
  | [] => some 0
  | c :: t =>
    let (negative, t) := sign t
    if c.toLower ≠ 'e' || t.isEmpty || t.any fun c => !c.isDigit then none
    else some (if negative then -digits t else digits t)

/-- Digits with at most one point among them, and an exponent. -/
def number (t : List Char) : Option ℚ :=
  let whole := t.takeWhile Char.isDigit
  let rest := t.dropWhile Char.isDigit
  let fraction := if rest.head? = some '.' then rest.tail.takeWhile Char.isDigit else []
  let rest := if rest.head? = some '.' then rest.tail.dropWhile Char.isDigit else rest
  if (whole ++ fraction).isEmpty then none
  else (exponent rest).map fun e : ℤ =>
    (digits (whole ++ fraction) : ℚ) * 10 ^ (e - (fraction.length : ℤ))

/-- `str::parse`, which reads the names of the infinities and of NaN too. -/
def parse (t : List Char) : Option F64 :=
  let (negative, t) := sign t
  let name := String.ofList (t.map Char.toLower)
  if name = "inf" ∨ name = "infinity" then some (if negative then negInf else posInf)
  else if name = "nan" then some nan
  else (number t).map fun x => real (if negative then -x else x)

example : parse "-1.5e2".toList = some (real (-150)) := by decide +kernel

example : parse ".".toList = none := by decide +kernel

end F64

/-! ## Lengths of time -/

abbrev Duration64 := { x : ℚ // 0 ≤ x ∧ x < 2 ^ 64 }

/-- A double that is no length of time is made one. -/
inductive Panic where
  | notADuration
  deriving DecidableEq

namespace Duration64

def zero : Duration64 := ⟨0, by norm_num⟩

/-- `Duration::from_secs_f64`. -/
def fromSecs : F64 → Except Panic Duration64
  | .real x => if h : 0 ≤ x ∧ x < 2 ^ 64 then .ok ⟨x, h⟩ else .error .notADuration
  | _ => .error .notADuration

/-- `Duration::mul_f64`. -/
def mul (d : Duration64) (x : F64) : Except Panic Duration64 := fromSecs (x.scale d)

/-- A share of a length of time, at most the whole of it. -/
def share (d : Duration64) (x : ℚ) (h : 0 ≤ x) : Duration64 :=
  ⟨d * min x 1, by
    have hshare : 0 ≤ min x 1 := le_min h zero_le_one
    have hle : (d : ℚ) * min x 1 ≤ d * 1 := mul_le_mul_of_nonneg_left (min_le_right x 1) d.2.1
    exact ⟨mul_nonneg d.2.1 hshare, by linarith [d.2.2]⟩⟩

theorem fromSecs_real (d : Duration64) : fromSecs (.real d) = .ok d := by
  rw [fromSecs, dif_pos d.2]

theorem mul_real (d : Duration64) {x : ℚ} (h : 0 ≤ x) :
    mul d (.real (min x 1)) = .ok (d.share x h) :=
  fromSecs_real (d.share x h)

end Duration64

namespace F64

/-! ## Positions -/

/-- The position that a number of seconds stands for.  What lies before the
start is the start, and what no `Duration` reaches is no position. -/
def position : F64 → Option Duration64
  | real x =>
    if h : x < 2 ^ 64 then some ⟨Max.max x 0, le_max_right x 0, max_lt h (by norm_num)⟩ else none
  | _ => none

def Fits (x : F64) : Prop := ∃ q, x = real q ∧ q < 2 ^ 64

theorem fits_real {q : ℚ} : Fits (real q) ↔ q < 2 ^ 64 := by
  constructor
  · rintro ⟨q', hq, hlt⟩
    cases hq
    exact hlt
  · exact fun hlt => ⟨q, rfl, hlt⟩

/-- A number of seconds floored at zero is made the position it stands for just
when it is one: NaN is floored to the start, and the others that are none fail.
-/
theorem fromSecs_floor_iff (x : F64) :
    (∃ d, Duration64.fromSecs (x.max (real 0)) = .ok d ∧ x.position = some d) ↔ x.Fits := by
  cases x with
  | nan | posInf | negInf =>
    constructor
    · rintro ⟨d, -, hposition⟩
      cases hposition
    · rintro ⟨q, hq, -⟩
      cases hq
  | real q =>
    rw [fits_real]
    constructor
    · rintro ⟨d, -, hposition⟩
      by_contra hlt
      rw [position, dif_neg hlt] at hposition
      cases hposition
    · intro hlt
      have hmax : Max.max q 0 < 2 ^ 64 := max_lt hlt (by norm_num)
      refine ⟨⟨Max.max q 0, le_max_right q 0, hmax⟩, ?_, dif_pos hlt⟩
      exact dif_pos ⟨le_max_right q 0, hmax⟩

end F64

end Castaway
