import Mathlib

/-!
# Motion on the panel

A surface travels to where the panel puts it.  Each component of its rectangle,
and its opacity, is a spring of its own that is stepped once a frame, by
semi-implicit Euler and by no more than 50 ms.  When all of them have arrived
the residue is snapped away and the phase is retired.  A navigation's progress
is one such spring.

The arithmetic is that of any ordered field: exact.
-/

namespace Castaway.Pipeline

variable {K : Type} [Field K] [LinearOrder K]

/-! ## Springs -/

/-- How long it takes to arrive, and how it is damped: one is critical. -/
structure Spring (K : Type) where
  response : K
  damping : K
  deriving DecidableEq, Repr

namespace Spring

/-- The source's `f32::consts::TAU`. -/
def tau : K := 13176795 / 2097152

/-- The source's `f32::EPSILON`. -/
def epsilon : K := 1 / 8388608

def omega (spring : Spring K) : K := tau / spring.response

/-- Advance `x`, with velocity `v`, toward `target`. -/
def step (spring : Spring K) (x v target dt : K) : K × K :=
  if spring.response ≤ epsilon then (target, 0)
  else
    let omega := spring.omega
    let stiffness := omega * omega
    let friction := 2 * spring.damping * omega
    let accel := -stiffness * (x - target) - friction * v
    let v := v + accel * dt
    (x + v * dt, v)

/-- A value this close to its target, moving this slowly, has arrived. -/
def Settled (x v target : K) : Prop := |x - target| < 1 / 1000 ∧ |v| < 1 / 100

instance (x v target : K) : Decidable (Settled x v target) :=
  inferInstanceAs (Decidable (_ ∧ _))

end Spring

/-! ## Choreography -/

/-- Where the panel puts a surface. -/
inductive Placement where
  | panel
  | widget
  | hidden
  deriving DecidableEq, Repr

/-- In panel-normalized units. -/
@[ext]
structure NormRect (K : Type) where
  x : K
  y : K
  w : K
  h : K
  deriving DecidableEq, Repr

namespace NormRect

def zero : NormRect K := ⟨0, 0, 0, 0⟩

def scaled (rect : NormRect K) (factor : K) : NormRect K :=
  let w := rect.w * factor
  let h := rect.h * factor
  ⟨rect.x + (rect.w - w) / 2, rect.y + (rect.h - h) / 2, w, h⟩

end NormRect

/-- Where a surface came onto the panel from. -/
inductive Origin (K : Type) where
  | rect (rect : NormRect K)
  | nowhere
  deriving DecidableEq, Repr

/-- One transition: where a surface was and where it is going, if anywhere.  The
origin counts only for one that was nowhere. -/
structure Step (K : Type) where
  before : Option Placement
  after : Option Placement
  origin : Origin K
  deriving DecidableEq, Repr

namespace Choreography

def spring (step : Step K) : Spring K :=
  match step.before, step.after with
  | none, _ =>
    match step.origin with
    | .rect _ => ⟨50 / 100, 1⟩
    | .nowhere => ⟨34 / 100, 1⟩
  | some _, none => ⟨26 / 100, 1⟩
  | some .panel, some .widget => ⟨52 / 100, 1⟩
  | some .widget, some .panel => ⟨48 / 100, 90 / 100⟩
  | some .hidden, some .widget => ⟨38 / 100, 92 / 100⟩
  | some .widget, some .hidden => ⟨26 / 100, 1⟩
  | some .hidden, some .panel => ⟨42 / 100, 92 / 100⟩
  | some .panel, some .hidden => ⟨28 / 100, 1⟩
  | some _, some _ => ⟨30 / 100, 1⟩

/-- How much of the panel a surface with no origin starts at. -/
def fadeThroughScale : K := 94 / 100

/-- The floor's own. -/
def floor : Spring K := ⟨38 / 100, 1⟩

def container : Spring K := ⟨50 / 100, 1⟩

/-- A screen arriving along the navigation axis. -/
def sharedAxis : Spring K := ⟨42 / 100, 1⟩

end Choreography

/-- The springs that the panel uses. -/
inductive PanelSpring : Spring K → Prop
  | surface (step : Step K) : PanelSpring (Choreography.spring step)
  | floor : PanelSpring Choreography.floor
  | container : PanelSpring Choreography.container
  | sharedAxis : PanelSpring Choreography.sharedAxis

/-! ## A surface -/

inductive Phase where
  | absent
  | entering
  | resting
  | moving
  | leaving
  deriving DecidableEq, Repr

/-- Where a surface is heading, and how visible it should be there. -/
structure Target (K : Type) where
  rect : NormRect K
  opacity : K
  deriving DecidableEq, Repr

/-- One surface's live geometry. -/
structure Motion (K : Type) where
  place : NormRect K
  /-- In panel widths, or heights, a second. -/
  vel : NormRect K
  opacity : K
  opacityVel : K
  phase : Phase
  spring : Spring K
  deriving DecidableEq, Repr

def stepRect (spring : Spring K) (place vel target : NormRect K) (dt : K) :
    NormRect K × NormRect K :=
  let x := spring.step place.x vel.x target.x dt
  let y := spring.step place.y vel.y target.y dt
  let w := spring.step place.w vel.w target.w dt
  let h := spring.step place.h vel.h target.h dt
  (⟨x.1, y.1, w.1, h.1⟩, ⟨x.2, y.2, w.2, h.2⟩)

def SettledRect (place vel target : NormRect K) : Prop :=
  Spring.Settled place.x vel.x target.x ∧ Spring.Settled place.y vel.y target.y ∧
    Spring.Settled place.w vel.w target.w ∧ Spring.Settled place.h vel.h target.h

instance (place vel target : NormRect K) : Decidable (SettledRect place vel target) :=
  inferInstanceAs (Decidable (_ ∧ _))

/-- The longest time that a frame may advance anything by, 50 ms. -/
def longestFrame : K := 1 / 20

namespace Motion

def absent : Motion K where
  place := ⟨0, 0, 1, 1⟩
  vel := .zero
  opacity := 0
  opacityVel := 0
  phase := .absent
  spring := ⟨30 / 100, 1⟩

/-- Start arriving.  A surface from a rectangle is opaque all the way. -/
def enter (motion : Motion K) (target : Target K) (origin : Origin K) (spring : Spring K) :
    Motion K :=
  { motion with
    place :=
      match origin with
      | .rect rect => rect
      | .nowhere => target.rect.scaled Choreography.fadeThroughScale
    opacity :=
      match origin with
      | .rect _ => target.opacity
      | .nowhere => 0
    vel := .zero
    opacityVel := 0
    phase := .entering
    spring }

def snap (motion : Motion K) (target : Target K) : Motion K :=
  { motion with
    place := target.rect
    opacity := target.opacity
    vel := .zero
    opacityVel := 0
    phase := if 0 < target.opacity then .resting else .absent }

/-- Head somewhere else.  The velocity is kept. -/
def moveTo (motion : Motion K) (spring : Spring K) : Motion K :=
  { motion with phase := .moving, spring }

def leave (motion : Motion K) (spring : Spring K) : Motion K :=
  { motion with phase := .leaving, spring }

def push (motion : Motion K) (velocity : K) : Motion K :=
  { motion with vel := { motion.vel with x := motion.vel.x + velocity } }

def advance (motion : Motion K) (target : Target K) (dt : K) : Motion K :=
  let dt := min dt longestFrame
  let moved := stepRect motion.spring motion.place motion.vel target.rect dt
  let faded := motion.spring.step motion.opacity motion.opacityVel target.opacity dt
  { motion with
    place := moved.1
    vel := moved.2
    opacity := min (max faded.1 0) 1
    opacityVel := faded.2 }

def Arrived (motion : Motion K) (target : Target K) : Prop :=
  SettledRect motion.place motion.vel target.rect ∧
    Spring.Settled motion.opacity motion.opacityVel target.opacity

instance (motion : Motion K) (target : Target K) : Decidable (motion.Arrived target) :=
  inferInstanceAs (Decidable (_ ∧ _))

/-- Snap the residue away and retire the phase. -/
def retire (motion : Motion K) (target : Target K) : Motion K :=
  { motion with
    place := target.rect
    opacity := target.opacity
    vel := .zero
    opacityVel := 0
    phase :=
      match motion.phase with
      | .leaving => .absent
      | _ => .resting }

/-- One frame.  With it, whether anything is still moving. -/
def step (motion : Motion K) (target : Target K) (dt : K) : Motion K × Bool :=
  if motion.phase = .absent then (motion, false)
  else
    let moved := motion.advance target dt
    if moved.Arrived target then (moved.retire target, false) else (moved, true)

end Motion

/-! ## A navigation -/

/-- A navigation that is being animated: how much of the outgoing screen still
shows. -/
structure Transition (K : Type) where
  spring : Spring K
  progress : K
  velocity : K
  target : K
  driven : Bool
  deriving DecidableEq, Repr

/-- What a frame makes of a navigation. -/
inductive Ticked (K : Type) where
  | animating (transition : Transition K)
  | undone
  | ended
  deriving DecidableEq, Repr

def Transition.tick (transition : Transition K) (dt : K) : Ticked K :=
  if transition.driven then .animating transition
  else
    let dt := min dt longestFrame
    let moved := transition.spring.step transition.progress transition.velocity
      transition.target dt
    if Spring.Settled moved.1 moved.2 transition.target then
      if 1 / 2 ≤ transition.target then .undone else .ended
    else .animating { transition with progress := moved.1, velocity := moved.2 }

end Castaway.Pipeline
