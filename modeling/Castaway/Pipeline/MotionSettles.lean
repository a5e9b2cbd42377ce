import Castaway.Lib.Oscillator
import Castaway.Pipeline.Motion

/-!
# Every motion settles, if the frames are short enough

One frame is one step of an oscillator for every component, and one norm of each
gets smaller by one factor (`exists_rate`), so all of them have arrived together
after some frames and the surface is retired at its target.  That takes a bound
on the frames which depends on the spring: with `ω` its frequency and `ζ` its
damping, `ω D (ω D + 4 ζ) < 4` for the longest of them, `D`.  At the bound and
above it the frames of that length have a start that never arrives.

The longest frame that is admitted, 50 ms, is short enough for the springs whose
response is 0.38 s or more, and too long for the five that are quicker.
-/

namespace Castaway.Pipeline

open Oscillator (size)

theorem atLeastTwo_thousand : Nat.AtLeastTwo 1000 := inferInstance

attribute [local instance] Oscillator.atLeastTwo_two Oscillator.atLeastTwo_four atLeastTwo_thousand

/-! ## One frame -/

namespace Spring

/-- The damping is near critical, and the response is not nothing. -/
structure NearCritical (spring : Spring ℝ) : Prop where
  responds : epsilon < spring.response
  low : 9 / 10 ≤ spring.damping
  high : spring.damping ≤ 1

/-- Frames up to `longest` are short enough for the spring. -/
def Steady (spring : Spring ℝ) (longest : ℝ) : Prop :=
  spring.omega * longest * (spring.omega * longest + 4 * spring.damping) < 4

/-- The norm of a component that is `x` off its target. -/
noncomputable def norm (spring : Spring ℝ) (x v : ℝ) : ℝ := size spring.omega spring.damping x v

variable {spring : Spring ℝ} {longest : ℝ}

section

variable (h : spring.NearCritical)
include h

theorem NearCritical.omega_pos : 0 < spring.omega := by
  have hresponse : 0 < spring.response := lt_trans (by norm_num [epsilon]) h.responds
  rw [omega, tau]
  positivity

theorem step_fst_sub (x v target dt : ℝ) :
    (spring.step x v target dt).1 - target =
      (Oscillator.step spring.omega spring.damping dt (x - target) v).1 := by
  rw [step, if_neg (not_le.mpr h.responds), Oscillator.step]
  ring

theorem step_snd (x v target dt : ℝ) : (spring.step x v target dt).2 =
      (Oscillator.step spring.omega spring.damping dt (x - target) v).2 := by
  rw [step, if_neg (not_le.mpr h.responds), Oscillator.step]

theorem step_fst (x v target dt : ℝ) :
    (spring.step x v target dt).1 = x + (spring.step x v target dt).2 * dt := by
  rw [step, if_neg (not_le.mpr h.responds)]

end

theorem step_rest (spring : Spring ℝ) (target dt : ℝ) :
    spring.step target 0 target dt = (target, 0) := by
  rw [step]
  split
  · rfl
  · simp

end Spring

/-- Frames of at least 1 ms, that advance by no more than `longest`. -/
def Admitted (longest : ℝ) (frames : ℕ → ℝ) : Prop :=
  ∀ n, 1 / 1000 ≤ frames n ∧ min (frames n) longestFrame ≤ longest

theorem Admitted.le {longest : ℝ} {frames : ℕ → ℝ} (h : Admitted longest frames) (n : ℕ) :
    1 / 1000 ≤ min (frames n) longestFrame :=
  le_min (h n).1 (by norm_num [longestFrame])

/-- A frame up to `longest` makes the norm smaller by a factor of `rate`. -/
def Spring.Shrinks (spring : Spring ℝ) (longest rate : ℝ) : Prop :=
  ∀ dt, 1 / 1000 ≤ dt → dt ≤ longest → ∀ x v target,
    spring.norm ((spring.step x v target dt).1 - target) (spring.step x v target dt).2 ≤
      rate * spring.norm (x - target) v

/-- All the frames that are short enough make it smaller by the same factor. -/
theorem Spring.exists_rate {spring : Spring ℝ} {longest : ℝ} (h : spring.NearCritical)
    (hsteady : spring.Steady longest) (hlongest : 0 ≤ longest) :
    ∃ rate, 0 ≤ rate ∧ rate < 1 ∧ spring.Shrinks longest rate := by
  have homega := h.omega_pos
  have hlimit := Oscillator.limit_pos spring.damping
  have hshort : spring.omega * longest < Oscillator.limit spring.damping :=
    (Oscillator.lt_limit_iff (by positivity) (by linarith [h.low])).mpr hsteady
  let limit := Oscillator.limit spring.damping
  let m := min (spring.omega * (1 / 1000) / limit) (1 - spring.omega * longest / limit)
  have hless : spring.omega * longest / limit < 1 := (div_lt_one hlimit).mpr hshort
  have hm : 0 < m := lt_min (by positivity) (by linarith)
  have hnonneg : 0 ≤ spring.omega * longest / limit := by positivity
  have hm' : m ≤ 1 := (min_le_right _ _).trans (by linarith)
  refine ⟨1 - m / 20, by linarith, by linarith, fun dt hlow hhigh x v target => ?_⟩
  rw [Spring.step_fst_sub h, Spring.step_snd h]
  apply Oscillator.size_step_le homega h.low h.high hm.le
  · have hmin : m ≤ spring.omega * (1 / 1000) / limit := min_le_left _ _
    rw [le_div_iff₀ hlimit] at hmin
    exact hmin.trans (by gcongr)
  · have hmax : m ≤ 1 - spring.omega * longest / limit := min_le_right _ _
    rw [le_sub_comm, div_le_iff₀ hlimit] at hmax
    exact le_trans (by gcongr) hmax

/-! ## One value -/

namespace Spring

variable {spring : Spring ℝ} {longest : ℝ} {frames : ℕ → ℝ}

/-- A value and its velocity after `n` frames. -/
noncomputable def after (spring : Spring ℝ) (target : ℝ) (frames : ℕ → ℝ) (x v : ℝ) : ℕ → ℝ × ℝ
  | 0 => (x, v)
  | n + 1 =>
    let before := spring.after target frames x v n
    spring.step before.1 before.2 target (min (frames n) longestFrame)

/-- What gets smaller by one factor at every frame. -/
theorem norm_after_le {rate : ℝ} (hrate : 0 ≤ rate) (hstep : spring.Shrinks longest rate)
    (hframes : Admitted longest frames) (target x v : ℝ) (n : ℕ) :
    spring.norm ((spring.after target frames x v n).1 - target)
        (spring.after target frames x v n).2 ≤ rate ^ n * spring.norm (x - target) v := by
  induction n with
  | zero =>
    rw [pow_zero, one_mul]
    exact le_refl _
  | succ n ih =>
    calc _ ≤ rate * spring.norm ((spring.after target frames x v n).1 - target)
          (spring.after target frames x v n).2 :=
          hstep _ (hframes.le n) (hframes n).2 _ _ _
      _ ≤ rate * (rate ^ n * spring.norm (x - target) v) := by gcongr
      _ = rate ^ (n + 1) * spring.norm (x - target) v := by ring

/-- How small a norm has to be for a component to have arrived. -/
noncomputable def near (spring : Spring ℝ) : ℝ := min (1 / 10000) (1 / (1000 * spring.omega))

theorem near_pos (h : spring.NearCritical) : 0 < spring.near := by
  have homega := h.omega_pos
  exact lt_min (by norm_num) (by positivity)

theorem settled_of_norm_lt (h : spring.NearCritical) {x v target : ℝ}
    (hnorm : spring.norm (x - target) v < spring.near) : Settled x v target := by
  have homega := h.omega_pos
  obtain ⟨hx, hv⟩ := Oscillator.abs_le_size (x := x - target) (v := v) homega h.low h.high
  have hoffset : spring.norm (x - target) v < 1 / 10000 := lt_of_lt_of_le hnorm (min_le_left _ _)
  have hspeed : spring.norm (x - target) v < 1 / (1000 * spring.omega) :=
    lt_of_lt_of_le hnorm (min_le_right _ _)
  rw [lt_div_iff₀ (by positivity)] at hspeed
  rw [norm] at hoffset hspeed
  constructor
  · linarith
  · linarith

/-- A norm bounds the offset by a multiple of what it was at the start. -/
theorem abs_le_of_norm_le (h : spring.NearCritical) {x v x' v' : ℝ}
    (hle : spring.norm x' v' ≤ spring.norm x v) :
    |x'| ≤ 10 * (1 + 1 / spring.omega) * (|x| + |v|) := by
  have homega := h.omega_pos
  have hoffset := (Oscillator.abs_le_size (x := x') (v := v') homega h.low h.high).1
  have hstart := Oscillator.size_le (x := x) (v := v) homega h.low h.high
  have hx := abs_nonneg x
  have hv := abs_nonneg v
  have hinv : 0 ≤ 1 / spring.omega := by positivity
  have hover : |v| / spring.omega = 1 / spring.omega * |v| := by ring
  rw [norm, norm] at hle
  rw [hover] at hstart
  nlinarith [mul_nonneg hinv hx, mul_nonneg hinv hv]

/-- What gets smaller by a factor below one gets as small as one likes, and
stays so. -/
theorem exists_pow_lt {rate start bound : ℝ} (hrate : 0 ≤ rate) (hlt : rate < 1)
    (hstart : 0 ≤ start) (hbound : 0 < bound) : ∃ N, ∀ n ≥ N, rate ^ n * start < bound := by
  obtain ⟨N, hN⟩ := exists_pow_lt_of_lt_one (show 0 < bound / (start + 1) by positivity) hlt
  refine ⟨N, fun n hn => ?_⟩
  rw [lt_div_iff₀ (by linarith)] at hN
  calc rate ^ n * start ≤ rate ^ N * (start + 1) := by
        apply mul_le_mul (pow_le_pow_of_le_one hrate hlt.le hn) (by linarith) hstart
        positivity
    _ < bound := hN

end Spring

/-! ## A surface -/

def Phase.final (phase : Phase) : Phase :=
  match phase with
  | .leaving => .absent
  | _ => .resting

/-- One of the five that a surface moves by. -/
inductive Component where
  | x
  | y
  | w
  | h
  | opacity

namespace Motion

def offset (motion : Motion ℝ) (target : Target ℝ) : Component → ℝ
  | .x => motion.place.x - target.rect.x
  | .y => motion.place.y - target.rect.y
  | .w => motion.place.w - target.rect.w
  | .h => motion.place.h - target.rect.h
  | .opacity => motion.opacity - target.opacity

def speed (motion : Motion ℝ) : Component → ℝ
  | .x => motion.vel.x
  | .y => motion.vel.y
  | .w => motion.vel.w
  | .h => motion.vel.h
  | .opacity => motion.opacityVel

noncomputable def norm (motion : Motion ℝ) (target : Target ℝ) (c : Component) : ℝ :=
  motion.spring.norm (motion.offset target c) (motion.speed c)

structure AtRest (motion : Motion ℝ) (target : Target ℝ) : Prop where
  place : motion.place = target.rect
  vel : motion.vel = .zero
  opacity : motion.opacity = target.opacity
  opacityVel : motion.opacityVel = 0

variable {motion : Motion ℝ} {target : Target ℝ} {longest rate dt : ℝ}

/-- What a frame does with the opacity before it is clamped. -/
theorem norm_clamped (h : motion.spring.NearCritical) (hdt : 0 < dt)
    (hopacity : 0 ≤ motion.opacity ∧ motion.opacity ≤ 1)
    (htarget : 0 ≤ target.opacity ∧ target.opacity ≤ 1) :
    let faded := motion.spring.step motion.opacity motion.opacityVel target.opacity dt
    motion.spring.norm (min (max faded.1 0) 1 - target.opacity) faded.2 ≤
      motion.spring.norm (faded.1 - target.opacity) faded.2 := by
  intro faded
  have hmoved : faded.1 = motion.opacity + faded.2 * dt := Spring.step_fst h _ _ _ _
  have homega := h.omega_pos
  rcases le_total faded.1 0 with hlow | hlow
  · have hclamp : min (max faded.1 0) 1 = 0 := by
      rw [max_eq_right hlow, min_eq_left zero_le_one]
    have hspeed : 0 ≤ -faded.2 := by
      by_contra hneg
      nlinarith [mul_pos (show 0 < faded.2 by linarith) hdt]
    rw [hclamp, Spring.norm, Spring.norm, ← Oscillator.size_neg,
      ← Oscillator.size_neg _ _ (faded.1 - _)]
    exact Oscillator.size_clamped homega h.low h.high (by linarith) (by linarith) hspeed
  · rcases le_total faded.1 1 with hhigh | hhigh
    · rw [max_eq_left hlow, min_eq_left hhigh]
    · have hclamp : min (max faded.1 0) 1 = 1 := by rw [max_eq_left hlow, min_eq_right hhigh]
      have hspeed : 0 ≤ faded.2 := by
        by_contra hneg
        nlinarith [mul_pos (show 0 < -faded.2 by linarith) hdt]
      rw [hclamp]
      exact Oscillator.size_clamped homega h.low h.high (by linarith) (by linarith) hspeed

theorem norm_advance_le (h : motion.spring.NearCritical)
    (hstep : motion.spring.Shrinks longest rate) (hlow : 1 / 1000 ≤ min dt longestFrame)
    (hhigh : min dt longestFrame ≤ longest) (hopacity : 0 ≤ motion.opacity ∧ motion.opacity ≤ 1)
    (htarget : 0 ≤ target.opacity ∧ target.opacity ≤ 1) (c : Component) :
    (motion.advance target dt).norm target c ≤ rate * motion.norm target c := by
  cases c with
  | x | y | w | h => exact hstep _ hlow hhigh _ _ _
  | opacity =>
    exact (norm_clamped h (by linarith) hopacity htarget).trans (hstep _ hlow hhigh _ _ _)

theorem arrived_of_norm_lt (h : motion.spring.NearCritical)
    (hnorm : ∀ c, motion.norm target c < motion.spring.near) : motion.Arrived target :=
  ⟨⟨Spring.settled_of_norm_lt h (hnorm .x), Spring.settled_of_norm_lt h (hnorm .y),
    Spring.settled_of_norm_lt h (hnorm .w), Spring.settled_of_norm_lt h (hnorm .h)⟩,
    Spring.settled_of_norm_lt h (hnorm .opacity)⟩

/-! ### Its run -/

/-- A surface after `n` frames toward one target. -/
noncomputable def after (motion : Motion ℝ) (target : Target ℝ) (frames : ℕ → ℝ) : ℕ → Motion ℝ
  | 0 => motion
  | n + 1 => ((motion.after target frames n).step target (frames n)).1

/-- Whether the surface asks for another frame after frame `n`. -/
noncomputable def asks (motion : Motion ℝ) (target : Target ℝ) (frames : ℕ → ℝ) (n : ℕ) : Bool :=
  ((motion.after target frames n).step target (frames n)).2

variable {start : Motion ℝ} {frames : ℕ → ℝ}

structure Retired (start motion : Motion ℝ) (target : Target ℝ) : Prop where
  rest : motion.AtRest target
  phase : motion.phase = start.phase.final
  opacity : 0 ≤ motion.opacity ∧ motion.opacity ≤ 1

/-- Still on its way. -/
structure Underway (start motion : Motion ℝ) : Prop where
  phase : motion.phase = start.phase
  spring : motion.spring = start.spring
  opacity : 0 ≤ motion.opacity ∧ motion.opacity ≤ 1

theorem opacity_advance (motion : Motion ℝ) (target : Target ℝ) (dt : ℝ) :
    0 ≤ (motion.advance target dt).opacity ∧ (motion.advance target dt).opacity ≤ 1 :=
  ⟨le_min (le_max_right _ _) zero_le_one, min_le_right _ _⟩

theorem advance_rest (h : motion.AtRest target) (htarget : 0 ≤ target.opacity ∧ target.opacity ≤ 1)
    (dt : ℝ) : motion.advance target dt = motion := by
  obtain ⟨place, vel, opacity, opacityVel, phase, spring⟩ := motion
  obtain ⟨rfl, rfl, rfl, rfl⟩ := h
  simp [advance, stepRect, NormRect.zero, Spring.step_rest, htarget.1, htarget.2]

theorem arrived_rest (h : motion.AtRest target) : motion.Arrived target := by
  obtain ⟨place, vel, opacity, opacityVel, phase, spring⟩ := motion
  obtain ⟨rfl, rfl, rfl, rfl⟩ := h
  simp [Arrived, SettledRect, Spring.Settled, NormRect.zero]

/-- A surface that is retired stays where it is, and asks for nothing. -/
theorem Retired.step (h : Retired start motion target)
    (htarget : 0 ≤ target.opacity ∧ target.opacity ≤ 1) (dt : ℝ) :
    motion.step target dt = (motion, false) := by
  unfold Motion.step
  split
  · rfl
  · next hdrawn =>
      have hresting : motion.phase = .resting := by
        rw [h.phase] at hdrawn ⊢
        cases hphase : start.phase with
        | leaving => exact absurd (congrArg Phase.final hphase) hdrawn
        | absent | entering | resting | moving => rfl
      dsimp only
      rw [advance_rest h.rest htarget, if_pos (arrived_rest h.rest)]
      obtain ⟨place, vel, opacity, opacityVel, phase, spring⟩ := motion
      obtain ⟨⟨rfl, rfl, rfl, rfl⟩, -, -⟩ := h
      obtain rfl : phase = .resting := hresting
      rfl

theorem Underway.step (h : Underway start motion) (hdrawn : start.phase ≠ .absent)
    (htarget : 0 ≤ target.opacity ∧ target.opacity ≤ 1) (dt : ℝ) :
    (motion.advance target dt).Arrived target ∧
        (motion.step target dt).2 = false ∧ Retired start (motion.step target dt).1 target ∨
      ¬ (motion.advance target dt).Arrived target ∧
        motion.step target dt = (motion.advance target dt, true) ∧
          Underway start (motion.advance target dt) := by
  have hphase : motion.phase ≠ .absent := by rwa [h.phase]
  rw [Motion.step, if_neg hphase]
  dsimp only
  by_cases harrived : (motion.advance target dt).Arrived target
  · rw [if_pos harrived]
    exact Or.inl ⟨harrived, rfl, ⟨rfl, rfl, rfl, rfl⟩, congrArg Phase.final h.phase, htarget⟩
  · rw [if_neg harrived]
    exact Or.inr ⟨harrived, rfl, h.phase, h.spring, opacity_advance _ _ _⟩

theorem offset_rest (h : motion.AtRest target) (c : Component) : motion.offset target c = 0 := by
  cases c with
  | x | y | w | h => simp [offset, h.place]
  | opacity => simp [offset, h.opacity]

/-- Along a run a surface is on its way, with a norm that gets smaller, or
retired. -/
theorem run (h : start.spring.NearCritical) (hrate : 0 ≤ rate)
    (hstep : start.spring.Shrinks longest rate) (hframes : Admitted longest frames)
    (hdrawn : start.phase ≠ .absent) (hopacity : 0 ≤ start.opacity ∧ start.opacity ≤ 1)
    (htarget : 0 ≤ target.opacity ∧ target.opacity ≤ 1) (n : ℕ) :
    Retired start (start.after target frames n) target ∨
      Underway start (start.after target frames n) ∧
        ∀ c, (start.after target frames n).norm target c ≤ rate ^ n * start.norm target c := by
  induction n with
  | zero =>
    refine Or.inr ⟨⟨rfl, rfl, hopacity⟩, fun c => ?_⟩
    rw [pow_zero, one_mul]
    exact le_refl _
  | succ n ih =>
    rw [after]
    rcases ih with hretired | ⟨hunderway, hnorm⟩
    · rw [hretired.step htarget]
      exact Or.inl hretired
    · rcases hunderway.step hdrawn htarget (frames n) with
        ⟨-, -, hretired⟩ | ⟨-, hmoved, hnext⟩
      · exact Or.inl hretired
      · rw [hmoved]
        refine Or.inr ⟨hnext, fun c => ?_⟩
        have hspring := hunderway.spring
        calc _ ≤ rate * (start.after target frames n).norm target c :=
              norm_advance_le (hspring ▸ h) (hspring ▸ hstep) (hframes.le n) (hframes n).2
                hunderway.opacity htarget c
          _ ≤ rate * (rate ^ n * start.norm target c) := by gcongr; exact hnorm c
          _ = rate ^ (n + 1) * start.norm target c := by ring

theorem Retired.after {n m : ℕ} (h : Retired start (start.after target frames n) target)
    (htarget : 0 ≤ target.opacity ∧ target.opacity ≤ 1) (hm : n ≤ m) :
    Retired start (start.after target frames m) target := by
  induction hm with
  | refl => exact h
  | step hm ih =>
    rw [Motion.after, ih.step htarget]
    exact ih

/-- A surface ends at its target, retired, and asks for no more frames. -/
def Ends (motion : Motion ℝ) (target : Target ℝ) (frames : ℕ → ℝ) : Prop :=
  ∃ N, ∀ n ≥ N,
    (motion.after target frames n).place = target.rect ∧
      (motion.after target frames n).opacity = target.opacity ∧
      (motion.after target frames n).phase = motion.phase.final ∧
      motion.asks target frames n = false

theorem ends (h : start.spring.NearCritical) (hrate : 0 ≤ rate) (hlt : rate < 1)
    (hstep : start.spring.Shrinks longest rate) (hframes : Admitted longest frames)
    (hdrawn : start.phase ≠ .absent) (hopacity : 0 ≤ start.opacity ∧ start.opacity ≤ 1)
    (htarget : 0 ≤ target.opacity ∧ target.opacity ≤ 1) : start.Ends target frames := by
  have hsmall (c : Component) :
      ∃ N, ∀ n ≥ N, rate ^ n * start.norm target c < start.spring.near :=
    Spring.exists_pow_lt hrate hlt (Oscillator.size_nonneg _ _ _ _) (Spring.near_pos h)
  choose bound hbound using hsmall
  let N := bound .x + bound .y + bound .w + bound .h + bound .opacity
  have hnear (c : Component) : rate ^ N * start.norm target c < start.spring.near := by
    refine hbound c N ?_
    cases c with
    | x | y | w | h | opacity =>
      simp only [N]
      omega
  have hretired : Retired start (start.after target frames (N + 1)) target := by
    rw [after]
    rcases run h hrate hstep hframes hdrawn hopacity htarget N with
      hretired | ⟨hunderway, hnorm⟩
    · rw [hretired.step htarget]
      exact hretired
    · rcases hunderway.step hdrawn htarget (frames N) with ⟨-, -, hretired⟩ | ⟨hnot, -, hnext⟩
      · exact hretired
      · have hspring := hunderway.spring
        refine absurd (arrived_of_norm_lt (hnext.spring ▸ h) fun c => ?_) hnot
        rw [hnext.spring]
        calc _ ≤ rate * (start.after target frames N).norm target c :=
              norm_advance_le (hspring ▸ h) (hspring ▸ hstep) (hframes.le N) (hframes N).2
                hunderway.opacity htarget c
          _ ≤ (start.after target frames N).norm target c :=
              mul_le_of_le_one_left (Oscillator.size_nonneg _ _ _ _) hlt.le
          _ ≤ rate ^ N * start.norm target c := hnorm c
          _ < start.spring.near := hnear c
  refine ⟨N + 1, fun n hn => ?_⟩
  have hn' := hretired.after htarget hn
  exact ⟨hn'.rest.place, hn'.rest.opacity, hn'.phase, congrArg Prod.snd (hn'.step htarget _)⟩

end Motion

/-! ## A navigation -/

/-- A navigation after `n` frames. -/
noncomputable def Transition.after (transition : Transition ℝ) (frames : ℕ → ℝ) : ℕ → Ticked ℝ
  | 0 => .animating transition
  | n + 1 =>
    match transition.after frames n with
    | .animating moved => moved.tick (frames n)
    | other => other

namespace Transition

variable {transition : Transition ℝ} {longest rate : ℝ} {frames : ℕ → ℝ}

noncomputable def final (transition : Transition ℝ) : Ticked ℝ :=
  if 1 / 2 ≤ transition.target then .undone else .ended

noncomputable def valueAfter (transition : Transition ℝ) (frames : ℕ → ℝ) (n : ℕ) : ℝ × ℝ :=
  transition.spring.after transition.target frames transition.progress transition.velocity n

/-- A navigation that nobody carries has the spring's value until that has
arrived. -/
theorem run (hdriven : transition.driven = false) (n : ℕ) :
    transition.after frames n = transition.final ∨
      transition.after frames n = .animating { transition with
        progress := (transition.valueAfter frames n).1
        velocity := (transition.valueAfter frames n).2 } ∧
      (0 < n → ¬ Spring.Settled (transition.valueAfter frames n).1
        (transition.valueAfter frames n).2 transition.target) := by
  induction n with
  | zero => exact Or.inr ⟨rfl, fun h => absurd h (lt_irrefl 0)⟩
  | succ n ih =>
    rw [after]
    rcases ih with hfinal | ⟨hmoved, -⟩
    · refine Or.inl ?_
      rw [hfinal, final]
      by_cases hback : 1 / 2 ≤ transition.target
      · rw [if_pos hback]
      · rw [if_neg hback]
    · rw [hmoved]
      dsimp only
      rw [tick, hdriven, if_neg Bool.false_ne_true]
      dsimp only
      by_cases hsettled : Spring.Settled (transition.valueAfter frames (n + 1)).1
          (transition.valueAfter frames (n + 1)).2 transition.target
      · exact Or.inl (if_pos hsettled)
      · exact Or.inr ⟨if_neg hsettled, fun _ => hsettled⟩

theorem ends (h : transition.spring.NearCritical) (hrate : 0 ≤ rate) (hlt : rate < 1)
    (hstep : transition.spring.Shrinks longest rate) (hframes : Admitted longest frames)
    (hdriven : transition.driven = false) :
    ∃ N, ∀ n ≥ N, transition.after frames n = transition.final := by
  obtain ⟨N, hN⟩ := Spring.exists_pow_lt hrate hlt
    (Oscillator.size_nonneg transition.spring.omega transition.spring.damping
      (transition.progress - transition.target) transition.velocity) (Spring.near_pos h)
  refine ⟨N + 1, fun n hn => ?_⟩
  rcases run hdriven n with hfinal | ⟨-, hnot⟩
  · exact hfinal
  · refine absurd (Spring.settled_of_norm_lt h ?_) (hnot (by omega))
    exact lt_of_le_of_lt (Spring.norm_after_le hrate hstep hframes _ _ _ n) (hN n (by omega))

end Transition

/-! ## Every motion -/

/-- Whatever moves by the spring settles, over all frames that advance it by no
more than `longest`. -/
structure Spring.Settles (spring : Spring ℝ) (longest : ℝ) : Prop where
  /-- A value stays within a multiple of its start and arrives. -/
  value : ∃ multiple, ∀ frames, Admitted longest frames → ∀ x v target,
    (∀ n, |(spring.after target frames x v n).1 - target| ≤ multiple * (|x - target| + |v|)) ∧
      ∃ N, ∀ n ≥ N, Spring.Settled (spring.after target frames x v n).1
        (spring.after target frames x v n).2 target
  /-- So does each component of a surface, which is retired at its target. -/
  surface : ∃ multiple, ∀ (motion : Motion ℝ) (target : Target ℝ) (frames : ℕ → ℝ),
    motion.spring = spring → motion.phase ≠ .absent →
    0 ≤ motion.opacity ∧ motion.opacity ≤ 1 → 0 ≤ target.opacity ∧ target.opacity ≤ 1 →
    Admitted longest frames →
      (∀ n c, |(motion.after target frames n).offset target c| ≤
        multiple * (|motion.offset target c| + |motion.speed c|)) ∧
      (∀ n, 0 ≤ (motion.after target frames n).opacity ∧
        (motion.after target frames n).opacity ≤ 1) ∧
      motion.Ends target frames
  /-- A navigation that nobody carries is over. -/
  navigation : ∀ (transition : Transition ℝ) (frames : ℕ → ℝ), transition.spring = spring →
    transition.driven = false → Admitted longest frames →
      ∃ N, ∀ n ≥ N, transition.after frames n = transition.final

namespace Spring

variable {spring : Spring ℝ} {longest : ℝ}

theorem settles_of_steady (h : spring.NearCritical) (hlongest : 0 ≤ longest)
    (hsteady : spring.Steady longest) : spring.Settles longest := by
  obtain ⟨rate, hrate, hlt, hstep⟩ := exists_rate h hsteady hlongest
  have hpow (n : ℕ) : rate ^ n ≤ 1 := pow_le_one₀ hrate hlt.le
  constructor
  · refine ⟨10 * (1 + 1 / spring.omega), fun frames hframes x v target => ⟨fun n => ?_, ?_⟩⟩
    · apply abs_le_of_norm_le h
      exact (norm_after_le hrate hstep hframes target x v n).trans
        (mul_le_of_le_one_left (Oscillator.size_nonneg _ _ _ _) (hpow n))
    · obtain ⟨N, hN⟩ := exists_pow_lt hrate hlt
        (Oscillator.size_nonneg spring.omega spring.damping (x - target) v) (near_pos h)
      refine ⟨N, fun n hn => settled_of_norm_lt h ?_⟩
      exact lt_of_le_of_lt (norm_after_le hrate hstep hframes target x v n) (hN n hn)
  · refine ⟨10 * (1 + 1 / spring.omega), ?_⟩
    rintro motion target frames rfl hdrawn hopacity htarget hframes
    have hrun := Motion.run h hrate hstep hframes hdrawn hopacity htarget
    refine ⟨fun n c => ?_, fun n => ?_, ?_⟩
    · rcases hrun n with hretired | ⟨hunderway, hnorm⟩
      · have homega := h.omega_pos
        rw [Motion.offset_rest hretired.rest, abs_zero]
        positivity
      · apply abs_le_of_norm_le h
        have hle := hnorm c
        rw [Motion.norm, hunderway.spring] at hle
        exact hle.trans (mul_le_of_le_one_left (Oscillator.size_nonneg _ _ _ _) (hpow n))
    · rcases hrun n with hretired | ⟨hunderway, -⟩
      · exact hretired.opacity
      · exact hunderway.opacity
    · exact Motion.ends h hrate hlt hstep hframes hdrawn hopacity htarget
  · rintro transition frames rfl hdriven hframes
    exact Transition.ends h hrate hlt hstep hframes hdriven

theorem not_settles (h : spring.NearCritical) (hlow : 1 / 1000 ≤ longest)
    (hhigh : longest ≤ longestFrame) (hnot : ¬ spring.Steady longest) :
    ¬ spring.Settles longest := by
  intro hsettles
  obtain ⟨rate, slope, hrate, hstep⟩ := @Oscillator.exists_eigen spring.omega spring.damping longest
    (by linarith) (not_lt.mp hnot)
  have hframes : Admitted longest fun _ => longest := fun _ => ⟨hlow, min_le_left _ _⟩
  have hrun (n : ℕ) :
      spring.after 0 (fun _ => longest) 1 slope n = (rate ^ n, slope * rate ^ n) := by
    induction n with
    | zero => simp [after]
    | succ n ih =>
      have hoffset := step_fst_sub h (rate ^ n) (slope * rate ^ n) 0 longest
      have hspeed := step_snd h (rate ^ n) (slope * rate ^ n) 0 longest
      rw [sub_zero, sub_zero, hstep] at hoffset
      rw [sub_zero, hstep] at hspeed
      rw [after, ih, min_eq_left hhigh, pow_succ']
      exact Prod.ext hoffset hspeed
  obtain ⟨multiple, hvalue⟩ := hsettles.value
  obtain ⟨N, hN⟩ := (hvalue _ hframes 1 slope 0).2
  have hsettled := (hN N (le_refl N)).1
  rw [hrun, sub_zero, abs_pow] at hsettled
  have hone : 1 ≤ |rate| := by
    rw [abs_of_nonpos (by linarith)]
    linarith
  linarith [one_le_pow₀ hone (n := N)]

theorem nearCritical_of_panel (h : PanelSpring spring) : spring.NearCritical := by
  cases h with
  | surface step =>
    unfold Choreography.spring
    repeat' split
    all_goals constructor <;> norm_num [epsilon]
  | floor => constructor <;> norm_num [Choreography.floor, epsilon]
  | container => constructor <;> norm_num [Choreography.container, epsilon]
  | sharedAxis => constructor <;> norm_num [Choreography.sharedAxis, epsilon]

/-- The longest frame that is admitted is short enough for the springs of 0.38 s
and more. -/
theorem steady_longestFrame_iff (h : PanelSpring spring) :
    spring.Steady longestFrame ↔ 38 / 100 ≤ spring.response := by
  cases h with
  | surface step =>
    unfold Choreography.spring
    repeat' split
    all_goals norm_num [Steady, omega, tau, longestFrame]
  | floor => norm_num [Steady, omega, tau, longestFrame, Choreography.floor]
  | container => norm_num [Steady, omega, tau, longestFrame, Choreography.container]
  | sharedAxis => norm_num [Steady, omega, tau, longestFrame, Choreography.sharedAxis]

end Spring

/-- Whatever moves by one of the panel's springs settles, whatever the frames,
when and only when the longest of them is short enough for the spring; and 50
ms, the longest that is admitted, is so for those whose response is 0.38 s or
more. -/
theorem motion_settles_iff {spring : Spring ℝ} (hspring : PanelSpring spring) {longest : ℝ}
    (hlow : 1 / 1000 ≤ longest) (hhigh : longest ≤ longestFrame) :
    (spring.Settles longest ↔ spring.Steady longest) ∧
      (spring.Settles longestFrame ↔ 38 / 100 ≤ spring.response) := by
  have h := Spring.nearCritical_of_panel hspring
  have hiff (D : ℝ) (hlow : 1 / 1000 ≤ D) (hhigh : D ≤ longestFrame) :
      spring.Settles D ↔ spring.Steady D := by
    constructor
    · intro hsettles
      by_contra hnot
      exact Spring.not_settles h hlow hhigh hnot hsettles
    · exact Spring.settles_of_steady h (by linarith)
  refine ⟨hiff longest hlow hhigh, ?_⟩
  rw [← Spring.steady_longestFrame_iff hspring]
  exact hiff longestFrame (by norm_num [longestFrame]) (le_refl _)

/-- At 60 Hz a screen arrives. -/
theorem motion_settles_iff_sixty_hz : ((Choreography.container : Spring ℝ).Settles (1 / 60) ↔
        (Choreography.container : Spring ℝ).Steady (1 / 60)) ∧
      ((Choreography.container : Spring ℝ).Settles longestFrame ↔
        38 / 100 ≤ (Choreography.container : Spring ℝ).response) :=
  motion_settles_iff .container (by norm_num) (by norm_num [longestFrame])

/-- At 20 Hz a surface that leaves the panel does not. -/
theorem leaving_diverges :
    let spring : Spring ℝ := Choreography.spring ⟨some .panel, none, .nowhere⟩
    PanelSpring spring ∧ ¬ spring.Settles longestFrame := by
  intro spring
  have hspring : PanelSpring spring := .surface _
  refine ⟨hspring, Spring.not_settles (Spring.nearCritical_of_panel hspring)
    (by norm_num [longestFrame]) (le_refl _) fun hsteady => ?_⟩
  rw [Spring.steady_longestFrame_iff hspring] at hsteady
  norm_num [spring, Choreography.spring] at hsteady

/-- A value one panel off its target is a thousand off after ten frames of 50
ms. -/
example :
    let spring : Spring ℚ := Choreography.spring ⟨some .panel, none, .nowhere⟩
    1000 < |((List.replicate 10 longestFrame).foldl
      (fun moved dt => spring.step moved.1 moved.2 0 dt) (1, 0)).1| := by
  decide +kernel

end Castaway.Pipeline
