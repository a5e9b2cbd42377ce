import Castaway.Lib.Runs
import Mathlib.Tactic.Linarith

/-!
# The position between two readings

A source says where it is about once a second, and the projection runs on from
what it said last.  A reading that disagrees by less than half a second is
absorbed: the projection goes on from where it is, at a rate that makes the two
meet after two seconds.  Any other reading is taken as it is.

Nothing but the next reading ends an absorption.

Positions, instants and durations are seconds and exact.
-/

namespace Castaway.Pipeline

/-- Where drift stops being drift and becomes a seek, 500 ms. -/
def seekThreshold : ℚ := 1 / 2

/-- How long the projection is given to absorb a drift, 2 s. -/
def converge : ℚ := 2

def maxTrim : ℚ := seekThreshold / converge

structure Projection where
  /-- Where it was anchored last, and when. -/
  anchor : ℚ
  anchorAt : ℚ
  /-- Against real time. -/
  rate : ℚ
  running : Bool
  duration : Option ℚ
  deriving DecidableEq, Repr

namespace Projection

def new (position now : ℚ) (running : Bool) (duration : Option ℚ) : Projection :=
  ⟨position, now, 1, running, duration⟩

def clamp (projection : Projection) (position : ℚ) : ℚ :=
  match projection.duration with
  | some total => min position total
  | none => position

def drawn (projection : Projection) (now : ℚ) : ℚ :=
  if projection.running then
    let elapsed := max (now - projection.anchorAt) 0
    projection.clamp (projection.anchor + elapsed * projection.rate)
  else projection.clamp projection.anchor

def observe (projection : Projection) (position now : ℚ) (running : Bool)
    (duration : Option ℚ) : Projection :=
  let shown := projection.drawn now
  let snapped : Projection := ⟨position, now, 1, running, duration⟩
  if projection.running ≠ running then snapped
  else
    let error := if shown ≤ position then position - shown else shown - position
    if seekThreshold ≤ error ∨ running = false then snapped
    else
      let trim := min (error / converge) maxTrim
      ⟨shown, now, if shown ≤ position then 1 + trim else 1 - trim, running, duration⟩

/-- How long until the projection advances by `step`. -/
def timeToAdvance (projection : Projection) (now step : ℚ) : Option ℚ :=
  if projection.running = false ∨ projection.rate ≤ 0 then none
  else if projection.duration.any fun total => total ≤ projection.drawn now then none
  else some (step / projection.rate)

end Projection

end Castaway.Pipeline
