import Mathlib.Data.Nat.Notation
import Mathlib.Algebra.Notation.Defs

/-!
# The transport strip

A source states a position about once a second, and the strip shows one that
moves: a `Projection` carries the last reading forward.  Every new reading
disagrees with it slightly, and a small disagreement is absorbed by trimming the
rate while a large one is taken at once.

Instants and durations are nanoseconds.  The projection's rate and the track's
width are floating point numbers of the machine, of which nothing is assumed:
they are any type with the operations of `Float64`.
-/

namespace Castaway.Kiosk

abbrev Instant := ℕ

abbrev Duration := ℕ

def secs (n : ℕ) : Duration := n * 1000000000

def millis (n : ℕ) : Duration := n * 1000000

/-- What the source computes with floating point numbers. -/
class Float64 (R : Type*) extends Zero R, One R, Add R, Sub R, Div R, Min R where
  lt : R → R → Bool
  /-- `Duration::as_secs_f64` -/
  asSecs : Duration → R
  /-- `Duration::mul_f64` -/
  mulDuration : Duration → R → Duration
  /-- `Duration::div_f64` -/
  divDuration : Duration → R → Duration

/-! ## The projection -/

/-- Where drift stops being drift and becomes a seek. -/
def seekError : Duration := millis 500

/-- How long the projection is given to absorb a drift error. -/
def converge : Duration := secs 2

/-- The most the projection's rate may be trimmed by. -/
def maxTrim (R : Type*) [Float64 R] : R :=
  (Float64.asSecs seekError : R) / Float64.asSecs converge

/-- A position that moves, anchored to what the source last said. -/
structure Projection (R : Type*) where
  anchor : Duration
  anchorAt : Instant
  rate : R
  running : Bool
  duration : Option Duration
  deriving DecidableEq

namespace Projection

variable {R : Type*} [Float64 R]

/-- Start from a reading the source has just stated. -/
def new (position : Duration) (now : Instant) (running : Bool) (duration : Option Duration) :
    Projection R :=
  { anchor := position, anchorAt := now, rate := 1, running, duration }

def clamp (p : Projection R) (position : Duration) : Duration :=
  p.duration.elim position (min position)

/-- The position to draw at `now`. -/
def «at» (p : Projection R) (now : Instant) : Duration :=
  if p.running then p.clamp (p.anchor + Float64.mulDuration (now - p.anchorAt) p.rate)
  else p.clamp p.anchor

/-- Take a reading from the source.  A change of state and an error from
`seekError` on are taken at once; a smaller error leaves the position and trims
the rate. -/
def observe (p : Projection R) (position : Duration) (now : Instant) (running : Bool)
    (duration : Option Duration) : Projection R :=
  let shown := p.at now
  let error := if shown ≤ position then position - shown else shown - position
  if p.running != running || decide (seekError ≤ error) || !running then
    new position now running duration
  else
    let trim : R := min (Float64.asSecs error / Float64.asSecs converge) (maxTrim R)
    { anchor := shown, anchorAt := now, running, duration,
      rate := if shown ≤ position then 1 + trim else 1 - trim }

/-- How long until the projection advances by `step`. -/
def timeToAdvance (p : Projection R) (now : Instant) (step : Duration) : Option Duration :=
  if !p.running || !Float64.lt 0 p.rate then none
  else if p.duration.any fun total => total ≤ p.at now then none
  else some (Float64.divDuration step p.rate)

end Projection

/-! ## The strip -/

/-- What the sender is currently doing with the track. -/
inductive PlaybackState where
  | stopped
  | playing
  | paused
  | seekingForward
  | seekingBackward
  | error
  deriving DecidableEq, Repr

/-- Whether audio should be flowing right now. -/
def PlaybackState.isActive (state : PlaybackState) : Bool :=
  state = .playing || state = .seekingForward || state = .seekingBackward

/-- A control the strip can offer. -/
inductive TransportControl where
  | shuffle
  | previous
  | playPause
  | next
  | repeat_
  deriving DecidableEq, Repr

/-- Everything the strip draws and decides from.  `controls` are the buttons
that the session's capabilities and what it reports leave. -/
structure TransportModel where
  state : PlaybackState := .stopped
  controls : List TransportControl := []
  position : Option Duration := none
  duration : Option Duration := none
  deriving DecidableEq, Repr

/-- Whether there is anything at all to draw: a button, or a track to be
somewhere on. -/
def TransportModel.isEmpty (model : TransportModel) : Bool :=
  model.controls.isEmpty && !model.duration.any (· ≠ 0)

/-- The strip's state on the render thread.  `trackWidth` is the width of the
scrub track's touch target, where there is one; `preview` is how far along it a
finger is. -/
structure TransportState (R : Type*) where
  model : TransportModel
  trackWidth : Option R
  projection : Projection R
  painted : Option Duration
  preview : Option R
  deriving DecidableEq

namespace TransportState

variable {R : Type*} [Float64 R] (state : TransportState R)

/-- What the source said, carried forward to `now`. -/
def livePosition (now : Instant) : Option Duration :=
  state.model.position.map fun _ => state.projection.at now

/-- How far the bar moves for one pixel of travel, in time. -/
def pixelOfTravel : Option Duration :=
  state.model.duration.bind fun total => state.trackWidth.bind fun width =>
    if Float64.lt width 1 then none else some (Float64.divDuration total width)

/-- The position the strip should be showing right now. -/
def showing (now : Instant) : Option Duration :=
  match state.preview with
  | some fraction => state.model.duration.map (Float64.mulDuration · fraction)
  | none => state.livePosition now

/-- Whether what is painted has fallen behind what should be showing.  The
readout changes on the whole second, and the bar with every pixel. -/
def stale (target : Duration) : Bool :=
  match state.painted with
  | none => true
  | some painted =>
    if state.preview.isSome then painted ≠ target
    else if painted / secs 1 ≠ target / secs 1 then true
    else state.pixelOfTravel.any fun pixel => pixel ≤ max painted target - min painted target

/-- When the strip next changes what it shows, asked at `now`. -/
def due (now : Instant) : Option Instant :=
  (state.livePosition now).bind fun live =>
    let toBoundary := secs 1 - live % secs 1
    let bar := state.pixelOfTravel.bind (state.projection.timeToAdvance now)
    let readout := if state.projection.running then some toBoundary else none
    ([readout, bar].filterMap id).min?.map (now + ·)

end TransportState

end Castaway.Kiosk
