import Mathlib.Analysis.Real.Sqrt
import Mathlib.Tactic.LinearCombination

/-!
# A damped oscillator, stepped by semi-implicit Euler

`step` advances an oscillator of angular frequency `ω` and damping `ζ` by any
time.  With `h = ω dt` it is stable for one fixed `h` exactly when
`h (h + 4 ζ) < 4`, that is below `limit ζ`.  Steps of different lengths do not
commute, so that alone says nothing about a run of them; but near critical
damping there is one norm, `size`, that every step short of the limit makes
smaller (`size_step_le`).

## Strategy

The two parts of `size` are the coordinates in which the step at the limit is
diagonal: one keeps its magnitude there and changes its sign, and the other
shrinks.  They are mixed by a shorter step, and the second is weighted so little
that the mixing does no harm.

At the limit and above it there is a start that a fixed step carries off for
ever (`exists_eigen`).
-/

namespace Castaway.Oscillator

noncomputable section

-- Named, so that no definition's literal leans on a lemma generated for another's.
theorem atLeastTwo_two : Nat.AtLeastTwo 2 := inferInstance

theorem atLeastTwo_four : Nat.AtLeastTwo 4 := inferInstance

theorem atLeastTwo_ten : Nat.AtLeastTwo 10 := inferInstance

attribute [local instance] atLeastTwo_two atLeastTwo_four atLeastTwo_ten

/-- The offset from the resting place, and the velocity, after `dt`. -/
def step (ω ζ dt x v : ℝ) : ℝ × ℝ :=
  let v' := v + (-(ω * ω) * x - 2 * ζ * ω * v) * dt
  (x + v' * dt, v')

/-- The largest `ω dt` of a stable step. -/
def limit (ζ : ℝ) : ℝ := 2 * (√(ζ ^ 2 + 1) - ζ)

variable {ω ζ dt x v : ℝ}

/-! ## The limit -/

theorem limit_eq (ζ : ℝ) : limit ζ * (limit ζ + 4 * ζ) = 4 := by
  have hroot : √(ζ ^ 2 + 1) ^ 2 = ζ ^ 2 + 1 := Real.sq_sqrt (by positivity)
  rw [limit]
  linear_combination 4 * hroot

theorem limit_pos (ζ : ℝ) : 0 < limit ζ := by
  have hroot : |ζ| < √(ζ ^ 2 + 1) := by
    rw [← Real.sqrt_sq_eq_abs]
    exact Real.sqrt_lt_sqrt (sq_nonneg ζ) (by linarith)
  have := le_abs_self ζ
  rw [limit]
  linarith

theorem lt_limit_iff {h : ℝ} (hh : 0 ≤ h) (hζ : 0 ≤ ζ) : h < limit ζ ↔ h * (h + 4 * ζ) < 4 := by
  have hlimit := limit_pos ζ
  have heq := limit_eq ζ
  constructor
  · intro hlt
    nlinarith
  · intro hlt
    by_contra hge
    nlinarith

theorem limit_bounds (hlow : 9 / 10 ≤ ζ) (hhigh : ζ ≤ 1) :
    41 / 50 ≤ limit ζ ∧ limit ζ ≤ 9 / 10 := by
  have hlimit := limit_pos ζ
  have heq := limit_eq ζ
  constructor
  · by_contra hlt
    nlinarith
  · by_contra hlt
    nlinarith

/-! ## One step, in the limit's coordinates -/

section Turn

variable {s r y u m N : ℝ}

/-- The velocity after a step of `r` times the limit, whose square is `s`. -/
def turnVelocity (s r y u : ℝ) : ℝ := u - r * s * y - r * ((4 - s) / 2) * u

/-- The offset after it. -/
def turnOffset (s r y u : ℝ) : ℝ := y + r * turnVelocity s r y u

def turned (s y u : ℝ) : ℝ := s * y + (2 - s) * u

def shrunk (y u : ℝ) : ℝ := 2 * y - u

theorem turned_turn (s r y u : ℝ) : (4 - s) * turned s (turnOffset s r y u) (turnVelocity s r y u) =
      (4 - s - r * (8 - 6 * s + 4 * s * r)) * turned s y u +
        -(s ^ 3 * r * (1 - r) / 2) * shrunk y u := by
  unfold turned shrunk turnOffset turnVelocity
  ring

theorem shrunk_turn (s r y u : ℝ) : (4 - s) * shrunk (turnOffset s r y u) (turnVelocity s r y u) =
      (4 - s - r * s * (4 + s - 2 * r * s) / 2) * shrunk y u +
        8 * r * (1 - r) * turned s y u := by
  unfold turned shrunk turnOffset turnVelocity
  ring

/-- Both coordinates are within `N`, the second by its weight. -/
def Within (s N y u : ℝ) : Prop := |turned s y u| ≤ N ∧ |shrunk y u| ≤ 10 * N

/-- A sum of two terms, from bounds on the two. -/
theorem abs_le_of_mul_eq {d z a p b q P Q c : ℝ} (hd : 0 < d) (h : d * z = a * p + b * q)
    (hp : |p| ≤ P) (hq : |q| ≤ Q) (hsum : |a| * P + |b| * Q ≤ d * c) : |z| ≤ c := by
  have hmul : d * |z| ≤ d * c := by
    calc d * |z| = |a * p + b * q| := by rw [← h, abs_mul, abs_of_pos hd]
      _ ≤ |a| * |p| + |b| * |q| := by
        rw [← abs_mul, ← abs_mul]
        exact abs_add_le _ _
      _ ≤ |a| * P + |b| * Q := by gcongr
      _ ≤ d * c := hsum
  exact le_of_mul_le_mul_left hmul hd

theorem within_turn (hs : 67 / 100 ≤ s) (hs' : s ≤ 81 / 100) (hr : 0 ≤ r) (hr' : r ≤ 1)
    (hm : 0 ≤ m) (hmr : m ≤ r) (hmr' : m ≤ 1 - r) (h : Within s N y u) :
    Within s ((1 - m / 20) * N) (turnOffset s r y u) (turnVelocity s r y u) := by
  obtain ⟨hturned, hshrunk⟩ := h
  have hN : 0 ≤ N := (abs_nonneg _).trans hturned
  have hd : 0 < 4 - s := by linarith
  have hpos : 0 ≤ s := by linarith
  have hrest : 0 ≤ 1 - r := by linarith
  have hcube : s ^ 3 ≤ 54 / 100 := by
    calc s ^ 3 ≤ (81 / 100) ^ 3 := by gcongr
      _ ≤ 54 / 100 := by norm_num
  have hcube' : 0 ≤ s ^ 3 := by positivity
  have hsquare : s ^ 2 ≤ 66 / 100 := by
    calc s ^ 2 ≤ (81 / 100) ^ 2 := by gcongr
      _ ≤ 66 / 100 := by norm_num
  have hless : (4 - s) * m / 20 ≤ 1 / 5 * m := by linarith [mul_nonneg hpos hm]
  constructor
  · have hmixed : 0 ≤ s ^ 3 * r * (1 - r) / 2 := by positivity
    -- before the coordinate changes its sign, and after it
    have hbefore : 2 / 5 ≤ 8 - 6 * s + 4 * s * r - 5 * s ^ 3 * (1 - r) := by
      linarith [mul_nonneg hcube' hr, mul_nonneg hpos hr]
    have hafter : 1 ≤ 8 - 2 * s + 4 * s * r - 5 * s ^ 3 * r := by
      linarith [mul_nonneg hcube' hrest, mul_nonneg hpos hr]
    have hsum : |4 - s - r * (8 - 6 * s + 4 * s * r)| + 10 * (s ^ 3 * r * (1 - r) / 2) ≤
        (4 - s) * (1 - m / 20) := by
      rcases abs_cases (4 - s - r * (8 - 6 * s + 4 * s * r)) with ⟨habs, -⟩ | ⟨habs, -⟩
      · rw [habs]
        linarith [mul_le_mul_of_nonneg_left hbefore hr]
      · rw [habs]
        linarith [mul_le_mul_of_nonneg_left hafter hrest]
    refine abs_le_of_mul_eq hd (turned_turn s r y u) hturned hshrunk ?_
    rw [abs_neg, abs_of_nonneg hmixed]
    linarith [mul_le_mul_of_nonneg_right hsum hN]
  · have hterm : s * (4 + s - 2 * r * s) ≤ 4 := by linarith [mul_nonneg hr (sq_nonneg s)]
    have hkept : 0 ≤ 4 - s - r * s * (4 + s - 2 * r * s) / 2 := by
      linarith [mul_le_mul_of_nonneg_left hterm hr]
    have hloss : 2 ≤ 5 * s * (4 + s - 2 * r * s) - 8 * (1 - r) := by
      linarith [sq_nonneg s, mul_nonneg hr (show 0 ≤ 8 - 10 * s ^ 2 by linarith)]
    have hsum : 10 * (4 - s - r * s * (4 + s - 2 * r * s) / 2) + 8 * r * (1 - r) ≤
        10 * ((4 - s) * (1 - m / 20)) := by
      linarith [mul_le_mul_of_nonneg_left hloss hr]
    have hgain : 0 ≤ 8 * r * (1 - r) := by positivity
    refine abs_le_of_mul_eq hd (shrunk_turn s r y u) hshrunk hturned ?_
    rw [abs_of_nonneg hkept, abs_of_nonneg hgain]
    linarith [mul_le_mul_of_nonneg_right hsum hN]

end Turn

/-! ## The norm -/

/-- The larger of the two coordinates, the second by its weight. -/
def size (ω ζ x v : ℝ) : ℝ :=
  max |turned (limit ζ ^ 2) (x / limit ζ) (v / ω)| (|shrunk (x / limit ζ) (v / ω)| / 10)

theorem size_nonneg (ω ζ x v : ℝ) : 0 ≤ size ω ζ x v := le_max_of_le_left (abs_nonneg _)

theorem size_le_iff {N : ℝ} : size ω ζ x v ≤ N ↔ Within (limit ζ ^ 2) N (x / limit ζ) (v / ω) := by
  rw [size, max_le_iff, Within, div_le_iff₀ (by norm_num), mul_comm N]

theorem size_neg (ω ζ x v : ℝ) : size ω ζ (-x) (-v) = size ω ζ x v := by
  have hturned : turned (limit ζ ^ 2) (-x / limit ζ) (-v / ω) =
      -turned (limit ζ ^ 2) (x / limit ζ) (v / ω) := by
    unfold turned
    ring
  have hshrunk : shrunk (-x / limit ζ) (-v / ω) = -shrunk (x / limit ζ) (v / ω) := by
    unfold shrunk
    ring
  rw [size, hturned, hshrunk, abs_neg, abs_neg, size]

theorem step_velocity (hω : 0 < ω) : (step ω ζ dt x v).2 / ω =
      turnVelocity (limit ζ ^ 2) (ω * dt / limit ζ) (x / limit ζ) (v / ω) := by
  have hlimit := (limit_pos ζ).ne'
  have hdamping : 4 - limit ζ ^ 2 = 4 * ζ * limit ζ := by
    linear_combination -limit_eq ζ
  rw [step, turnVelocity, hdamping]
  field_simp
  ring

theorem step_offset (hω : 0 < ω) : (step ω ζ dt x v).1 / limit ζ =
      turnOffset (limit ζ ^ 2) (ω * dt / limit ζ) (x / limit ζ) (v / ω) := by
  have hlimit := (limit_pos ζ).ne'
  rw [turnOffset, ← step_velocity hω, step]
  field_simp

/-- Every step short of the limit makes the norm smaller: by how much depends on
how far it is from nothing and from the limit. -/
theorem size_step_le {m : ℝ} (hω : 0 < ω) (hlow : 9 / 10 ≤ ζ) (hhigh : ζ ≤ 1) (hm : 0 ≤ m)
    (hmin : m * limit ζ ≤ ω * dt) (hmax : ω * dt ≤ (1 - m) * limit ζ) :
    size ω ζ (step ω ζ dt x v).1 (step ω ζ dt x v).2 ≤ (1 - m / 20) * size ω ζ x v := by
  have hlimit := limit_pos ζ
  obtain ⟨hleast, hmost⟩ := limit_bounds hlow hhigh
  rw [size_le_iff, step_velocity hω, step_offset hω]
  apply within_turn
  · nlinarith only [hleast]
  · nlinarith only [hlimit, hmost]
  · exact div_nonneg (le_trans (by positivity) hmin) hlimit.le
  · rw [div_le_one hlimit]
    linarith [mul_nonneg hm hlimit.le]
  · exact hm
  · rwa [le_div_iff₀ hlimit]
  · rw [le_sub_comm, div_le_iff₀ hlimit]
    exact hmax
  · exact size_le_iff.mp (le_refl _)

/-- The norm bounds the offset, and the velocity. -/
theorem abs_le_size (hω : 0 < ω) (hlow : 9 / 10 ≤ ζ) (hhigh : ζ ≤ 1) :
    |x| ≤ 5 * size ω ζ x v ∧ |v| ≤ 4 * ω * size ω ζ x v := by
  have hlimit := limit_pos ζ
  obtain ⟨hleast, hmost⟩ := limit_bounds hlow hhigh
  have hs : limit ζ ^ 2 ≤ 81 / 100 := by nlinarith only [hlimit, hmost]
  have hs' : 67 / 100 ≤ limit ζ ^ 2 := by nlinarith only [hleast]
  obtain ⟨hturned, hshrunk⟩ := (@size_le_iff ω ζ x v _).mp (le_refl _)
  have hN := size_nonneg ω ζ x v
  have hoffset : |x / limit ζ| ≤ 5 * size ω ζ x v := by
    refine abs_le_of_mul_eq (d := 4 - limit ζ ^ 2) (a := 1) (b := 2 - limit ζ ^ 2) (by linarith)
      ?_ hturned hshrunk ?_
    · unfold turned shrunk
      ring
    · rw [abs_one, abs_of_nonneg (show 0 ≤ 2 - limit ζ ^ 2 by linarith)]
      nlinarith only [hN, hs']
  have hvelocity : |v / ω| ≤ 4 * size ω ζ x v := by
    refine abs_le_of_mul_eq (d := 4 - limit ζ ^ 2) (a := 2) (b := -limit ζ ^ 2) (by linarith)
      ?_ hturned hshrunk ?_
    · unfold turned shrunk
      ring
    · rw [abs_two, abs_neg, abs_of_nonneg (sq_nonneg _)]
      nlinarith only [hN, hs]
  rw [abs_div, abs_of_pos hlimit, div_le_iff₀ hlimit] at hoffset
  rw [abs_div, abs_of_pos hω, div_le_iff₀ hω] at hvelocity
  constructor
  · nlinarith only [hoffset, hN, hlimit, hmost]
  · linarith

/-- The norm is no more than the offset and the velocity make it. -/
theorem size_le (hω : 0 < ω) (hlow : 9 / 10 ≤ ζ) (hhigh : ζ ≤ 1) :
    size ω ζ x v ≤ |x| + 2 * (|v| / ω) := by
  have hlimit := limit_pos ζ
  obtain ⟨hleast, hmost⟩ := limit_bounds hlow hhigh
  have hs : limit ζ ^ 2 ≤ 1 := by nlinarith only [hlimit, hmost]
  have hx := abs_nonneg x
  have hv : |v / ω| = |v| / ω := by rw [abs_div, abs_of_pos hω]
  have hu : 0 ≤ |v| / ω := by positivity
  rw [size_le_iff]
  constructor
  · refine abs_le_of_mul_eq (d := 1) (a := limit ζ) (b := 2 - limit ζ ^ 2) one_pos ?_
      (le_refl |x|) hv.le ?_
    · unfold turned
      field_simp
    · rw [abs_of_pos hlimit, abs_of_nonneg (show 0 ≤ 2 - limit ζ ^ 2 by linarith)]
      nlinarith only [hx, hu, hmost, sq_nonneg (limit ζ)]
  · refine abs_le_of_mul_eq (d := limit ζ) (a := 2) (b := -limit ζ) hlimit ?_ (le_refl |x|) hv.le ?_
    · unfold shrunk
      field_simp
      ring
    · rw [abs_two, abs_neg, abs_of_pos hlimit]
      nlinarith only [hx, hu, hleast]

/-- An offset that is cut short on its way out makes the norm no larger. -/
theorem size_clamped {x' : ℝ} (hω : 0 < ω) (hlow : 9 / 10 ≤ ζ) (hhigh : ζ ≤ 1)
    (hx' : 0 ≤ x') (hx : x' ≤ x) (hv : 0 ≤ v) : size ω ζ x' v ≤ size ω ζ x v := by
  have hlimit := limit_pos ζ
  obtain ⟨hleast, hmost⟩ := limit_bounds hlow hhigh
  have hone : 1 ≤ 2 - limit ζ ^ 2 := by nlinarith only [hlimit, hmost]
  have hs : 0 ≤ 2 - limit ζ ^ 2 := by linarith
  have hs' : 0 ≤ limit ζ ^ 2 := sq_nonneg _
  have hu : 0 ≤ v / ω := by positivity
  have hy : 0 ≤ x' / limit ζ := by positivity
  have hy' : x' / limit ζ ≤ x / limit ζ := by gcongr
  obtain ⟨hturned, hshrunk⟩ := (@size_le_iff ω ζ x v _).mp (le_refl _)
  have hturn : turned (limit ζ ^ 2) (x' / limit ζ) (v / ω) ≤
      turned (limit ζ ^ 2) (x / limit ζ) (v / ω) := by
    unfold turned
    gcongr
  have hstart : 0 ≤ turned (limit ζ ^ 2) (x' / limit ζ) (v / ω) :=
    add_nonneg (mul_nonneg hs' hy) (mul_nonneg hs hu)
  rw [abs_of_nonneg (hstart.trans hturn)] at hturned
  rw [shrunk, abs_le] at hshrunk
  rw [size_le_iff, Within, abs_of_nonneg hstart, shrunk, abs_le]
  refine ⟨hturn.trans hturned, ?_, by linarith⟩
  have hfast : v / ω ≤ size ω ζ x v := by
    calc v / ω ≤ (2 - limit ζ ^ 2) * (v / ω) := le_mul_of_one_le_left hu hone
      _ ≤ turned (limit ζ ^ 2) (x' / limit ζ) (v / ω) :=
          le_add_of_nonneg_left (mul_nonneg hs' hy)
      _ ≤ size ω ζ x v := hturn.trans hturned
  linarith

/-! ## At the limit, and above it -/

/-- A characteristic polynomial that is not positive at -1 has a root there or
beyond. -/
theorem exists_root {trace det : ℝ} (h : 1 + trace + det ≤ 0) :
    ∃ rate ≤ -1, rate ^ 2 - trace * rate + det = 0 := by
  have hdisc : (2 + trace) ^ 2 ≤ trace ^ 2 - 4 * det := by linarith
  have hroot : √(trace ^ 2 - 4 * det) ^ 2 = trace ^ 2 - 4 * det :=
    Real.sq_sqrt ((sq_nonneg _).trans hdisc)
  have hle : 2 + trace ≤ √(trace ^ 2 - 4 * det) := Real.le_sqrt_of_sq_le hdisc
  refine ⟨(trace - √(trace ^ 2 - 4 * det)) / 2, by linarith, ?_⟩
  linear_combination hroot / 4

/-- A fixed step at the limit or above it has a start that it turns round
without making it smaller. -/
theorem exists_eigen (hdt : 0 < dt) (h : 4 ≤ ω * dt * (ω * dt + 4 * ζ)) :
    ∃ rate slope : ℝ, rate ≤ -1 ∧
      ∀ a, step ω ζ dt a (slope * a) = (rate * a, slope * (rate * a)) := by
  obtain ⟨rate, hrate, hchar⟩ := @exists_root (2 - 2 * ζ * (ω * dt) - (ω * dt) ^ 2)
    (1 - 2 * ζ * (ω * dt)) (by linarith)
  have hne : rate ≠ 0 := by linarith
  -- the velocity that changes the offset by as much
  refine ⟨rate, (rate - 1) / (dt * rate), hrate, fun a => ?_⟩
  have hvelocity : (step ω ζ dt a ((rate - 1) / (dt * rate) * a)).2 =
      (rate - 1) / (dt * rate) * (rate * a) := by
    rw [step]
    field_simp
    linear_combination -a * hchar
  apply Prod.ext
  · have hoffset : (step ω ζ dt a ((rate - 1) / (dt * rate) * a)).1 =
        a + (step ω ζ dt a ((rate - 1) / (dt * rate) * a)).2 * dt := rfl
    rw [hoffset, hvelocity]
    field_simp
    ring
  · exact hvelocity

end

end Castaway.Oscillator
