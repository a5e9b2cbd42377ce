import Mathlib.Logic.Function.Basic
import Mathlib.Data.Nat.Notation

/-!
# Who has the glass

The panel shows its shell, a stack of screens with Home at the bottom, and the
surfaces that sessions and the idle screen put up.  Which surface goes where is
never stored: `Panel.focus` and `Panel.placement` answer it from the screens,
the surfaces and the one thing the shell was asked.  Of a screen nothing is kept
but that it is on the stack.
-/

namespace Castaway.Kiosk

/-- What can be up over the shell.  Only the idle widget is the shell's own. -/
inductive Surface where
  | video
  | card
  | castPage
  | idleWidget
  deriving DecidableEq, Repr

namespace Surface

/-- Every surface, in the order in which they are placed. -/
def all : List Surface := [.video, .card, .castPage, .idleWidget]

/-- Whether this surface belongs to a session, and so may own the whole panel.
-/
def isSession (surface : Surface) : Bool := surface != .idleWidget

end Surface

/-- Which surfaces exist right now. -/
structure Surfaces where
  video : Bool := false
  card : Bool := false
  castPage : Bool := false
  idleWidget : Bool := false
  deriving DecidableEq, Repr

namespace Surfaces

def has (surfaces : Surfaces) : Surface → Bool
  | .video => surfaces.video
  | .card => surfaces.card
  | .castPage => surfaces.castPage
  | .idleWidget => surfaces.idleWidget

def set (surfaces : Surfaces) (surface : Surface) (present : Bool) : Surfaces :=
  match surface with
  | .video => { surfaces with video := present }
  | .card => { surfaces with card := present }
  | .castPage => { surfaces with castPage := present }
  | .idleWidget => { surfaces with idleWidget := present }

def anySession (surfaces : Surfaces) : Bool := surfaces.video || surfaces.card || surfaces.castPage

end Surfaces

/-- Who owns the glass. -/
inductive Focus where
  | session
  | shell
  deriving DecidableEq, Repr

/-- Where a surface goes. -/
inductive Placement where
  | panel
  | widget
  | hidden
  deriving DecidableEq, Repr

/-- Every screen, every surface, and who has the glass.  A renderer that nobody
gave a Home has no screens, and a stack is never empty. -/
structure Panel where
  above : Option ℕ := none
  surfaces : Surfaces := {}
  shellForward : Bool := false
  deriving DecidableEq, Repr

namespace Panel

/-- How deep the shell is: 1 is Home, 0 is no shell at all. -/
def depth (p : Panel) : ℕ := p.above.elim 0 (· + 1)

def focus (p : Panel) : Focus :=
  if !p.shellForward && p.surfaces.anySession then .session else .shell

/-- Whether the shell is showing Home itself. -/
def atHome (p : Panel) : Bool := p.above.all (· = 0)

/-- Where a surface goes right now. -/
def placement (p : Panel) (surface : Surface) : Placement :=
  if !p.surfaces.has surface then .hidden
  else if !surface.isSession then if p.atHome then .widget else .hidden
  else match p.focus with
    | .session => .panel
    | .shell => if p.atHome then .widget else .hidden

def setSurface (p : Panel) (surface : Surface) (present : Bool) : Panel :=
  { p with surfaces := p.surfaces.set surface present }

/-- Whether the panel is somewhere a person put it: deeper than Home, or with
the shell over something that is playing. -/
def awayFromRest (p : Panel) : Bool := 1 < p.depth || (p.shellForward && p.surfaces.anySession)

def rest (p : Panel) : Panel := { p with shellForward := false, above := p.above.map fun _ => 0 }

/-- All the way Home, with the shell over whatever is playing. -/
def goHome (p : Panel) : Panel := { p with shellForward := true, above := p.above.map fun _ => 0 }

/-- Pop one screen of the shell, without touching the focus. -/
def popScreen (p : Panel) : Panel := { p with above := p.above.map (· - 1) }

/-- One step out: a session that fills the panel is demoted first. -/
def back (p : Panel) : Panel :=
  match p.focus with
  | .session => { p with shellForward := true }
  | .shell => p.popScreen

/-- A screen on top of the current one brings the shell forward. -/
def push (p : Panel) : Panel :=
  if p.above.isSome then { p with above := p.above.map (· + 1), shellForward := true } else p

/-- Set or refresh Home, under whatever is stacked on it. -/
def setHome (p : Panel) : Panel := { p with above := some (p.above.getD 0) }

/-- Replace the screen on top, or push if Home is. -/
def replaceTop (p : Panel) : Panel :=
  if p.above.isSome then { p with above := p.above.map (max 1), shellForward := true } else p

def handToSession (p : Panel) : Panel :=
  if p.surfaces.anySession then { p with shellForward := false } else p

def handToShell (p : Panel) : Panel := { p with shellForward := true }

end Panel

end Castaway.Kiosk
