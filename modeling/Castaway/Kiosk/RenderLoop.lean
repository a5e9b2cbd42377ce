import Castaway.Kiosk.Strip
import Castaway.Kiosk.Surfaces

/-!
# The render loop

One call of `RenderLoop.frame` drains the commands that wait, advances every
motion, repaints what has changed and presents.  `RenderLoop.demand` then
answers, from what stands, when the next frame is owed.

A frame reads one clock.  What is outside the loop comes in with the frame
(`Outside`): which springs have arrived, what could be drawn, and what waited in
the channels.  Of a layer nothing is kept but that it is there.
-/

namespace Castaway.Kiosk

/-! ## What the loop owes the glass -/

/-- What the render loop owes the glass, computed fresh each time. -/
inductive Demand where
  | idle
  | «at» (instant : Instant)
  | frame
  deriving DecidableEq, Repr

namespace Demand

def deadline (instant : Option Instant) : Demand := instant.elim .idle .at

/-- The more urgent wins, and of two deadlines the earlier. -/
def merge : Demand → Demand → Demand
  | .frame, _ => .frame
  | _, .frame => .frame
  | .at a, .at b => .at (min a b)
  | .at a, .idle => .at a
  | .idle, .at b => .at b
  | .idle, .idle => .idle

end Demand

/-! ## What keeps time -/

/-- Where a surface's motion has got to. -/
inductive Phase where
  | absent
  | entering
  | resting
  | moving
  | leaving
  deriving DecidableEq, Repr

namespace Phase

def inFlight (phase : Phase) : Bool := phase = .entering || phase = .moving || phase = .leaving

/-- A surface that has finished leaving is gone, and any other one rests. -/
def arrive (phase : Phase) : Phase := if phase = .leaving then .absent else .resting

end Phase

/-- A navigation under way: whether a finger holds it, and whether it springs
back. -/
structure Transition where
  driven : Bool
  springsBack : Bool := false
  deriving DecidableEq, Repr

/-- What takes a navigation back: the screens above Home as they were, if they
were kept. -/
inductive Undo where
  | pop
  | restore (above : ℕ)
  deriving DecidableEq, Repr

/-- How long after the last audible sample the bars are still worth waking for.
-/
def linger : Duration := secs 1

/-- How often the bars want a frame. -/
def frameInterval : Duration := millis 33

def clearGrace : Duration := millis 1200

/-- How long a touch keeps a starting session from claiming the panel. -/
def idleGrace : Duration := secs 20

/-- How long the panel stays where a person put it. -/
def homeAfter : Duration := secs 120

/-- The mixer's side of the bars: when sound was last heard. -/
structure Analyzer where
  lastSound : Option Instant := none
  deriving DecidableEq, Repr

def Analyzer.isSounding (analyzer : Analyzer) (now : Instant) : Bool :=
  analyzer.lastSound.any fun heard => now - heard < linger

inductive OsdCommand where
  | «show» (ttl : Option Duration)
  | clear
  deriving DecidableEq, Repr

/-- The banner on screen, and when it goes. -/
structure Showing where
  deadline : Option Instant
  renderedFor : ℕ × ℕ
  deriving DecidableEq, Repr

structure OsdController where
  showing : Option Showing := none
  deriving DecidableEq, Repr

namespace OsdController

def nextChange (c : OsdController) : Option Instant := c.showing.bind (·.deadline)

/-- Rasterize the banner for `surface`; one that cannot be drawn goes. -/
def draw (banner : Showing) (surface : ℕ × ℕ) (drawn : Bool) : OsdController :=
  if drawn then ⟨some { banner with renderedFor := surface }⟩ else ⟨none⟩

/-- Take the last of the commands that wait, or let the banner run out. -/
def poll (c : OsdController) (commands : List OsdCommand) (now : Instant) (surface : ℕ × ℕ)
    (drawn : Bool) : OsdController :=
  match commands.getLast? with
  | some .clear => ⟨none⟩
  | some (.show ttl) => draw ⟨ttl.map (now + ·), surface⟩ surface drawn
  | none =>
    match c.showing with
    | none => c
    | some banner =>
      if banner.deadline.any (· ≤ now) then ⟨none⟩
      else if banner.renderedFor = surface then c
      else draw banner surface drawn

end OsdController

/-! ## The loop's state -/

/-- What the loop is told.  A frame comes with its session's epoch and with
whether the compositor could take it; a clear with the epoch the channel is at;
a card with the track its strip draws, with whether it is another item's, and
with whether the card and the strip could be painted; a tagged screen with
whether the one on top has its tag.  `StartStream` is a tap, like any other. -/
inductive RenderCommand (R : Type*) where
  | video (epoch : ℕ) (landed : Bool)
  | nowPlaying (model : TransportModel) (trackWidth : Option R) (newItem drawn painted : Bool)
  | clearVideo (epoch : ℕ)
  | clearNowPlaying
  | home
  | pushScreen (outgoing : Bool)
  | replaceScreen
  | replaceScreenTagged (onTop : Bool)
  | shellBack (outgoing : Bool)
  | restPanel (outgoing : Bool)
  | addTap
  | urlAudioOnly (drawn : Bool)

structure RenderLoop (R : Type*) where
  size : ℕ × ℕ
  panel : Panel := {}
  placed : Surface → Option Placement := fun _ => none
  motions : Surface → Phase := fun _ => .absent
  animating : Bool := false
  transition : Option Transition := none
  transitionUndo : Option Undo := none
  taps : ℕ := 0
  videoClearDue : Option Instant := none
  cardClearDue : Option Instant := none
  clearedThrough : Option ℕ := none
  /-- `compositor.has_layer(LayerId::NowPlaying)` -/
  cardLayer : Bool := false
  transport : Option (TransportState R) := none
  visualizer : Option Analyzer := none
  barsTicked : Option Instant := none
  lastTouch : Option Instant := none
  osd : Option OsdController := none

/-- What a frame meets outside the loop.  `arrived` says which surface's spring
has settled, and `outgoing` whether the screen that is left could be drawn. -/
structure Outside (R : Type*) where
  commands : List (RenderCommand R) := []
  landed : Bool := false
  arrived : Surface → Bool := fun _ => true
  floorMoving : Bool := false
  painted : Bool := true
  outgoing : Bool := true
  banners : List OsdCommand := []
  bannerDrawn : Bool := true
  tapsDone : ℕ := 0

namespace RenderLoop

variable {R : Type*} (r : RenderLoop R)

/-! ## Where the surfaces are -/

def wants (surface : Surface) : Option Placement :=
  if r.panel.surfaces.has surface then some (r.panel.placement surface) else none

/-- What a surface does about being placed elsewhere. -/
def setOff (surface : Surface) : Phase :=
  if r.panel.depth = 0 then
    if r.wants surface = none ∨ r.wants surface = some .hidden then .absent else .resting
  else match r.placed surface, r.wants surface with
    | none, some _ => if r.motions surface = .absent then .entering else .moving
    | some _, none => .leaving
    | _, _ => .moving

/-- Point every surface at where the panel says it goes. -/
def reflowSurfaces : RenderLoop R :=
  { r with
    placed := r.wants
    motions := fun surface =>
      if r.placed surface = r.wants surface then r.motions surface else r.setOff surface }

/-- Record that a surface is up, or gone, and place everything again if it
changed. -/
def setSurface (surface : Surface) (present : Bool) : RenderLoop R :=
  if r.panel.surfaces.has surface = present then r
  else { r with panel := r.panel.setSurface surface present }.reflowSurfaces

/-- Advance every motion.  `animating` is what the loop knows of it afterwards.
-/
def tickMotion (o : Outside R) : RenderLoop R :=
  let steps (surface : Surface) : Bool := r.motions surface ≠ .absent && !o.arrived surface
  { r with
    animating := Surface.all.any steps || o.floorMoving
    motions := fun surface =>
      if r.motions surface = .absent ∨ !o.arrived surface then r.motions surface
      else (r.motions surface).arrive }

/-! ## Navigation -/

/-- Begin a transition, if there is a screen and it could be drawn. -/
def beginTransition (driven outgoing : Bool) : RenderLoop R :=
  if r.panel.above.isSome && outgoing then { r with transition := some { driven } } else r

def undoTransition : RenderLoop R :=
  let undone : RenderLoop R := match r.transitionUndo with
    | none => r
    | some .pop => { r with panel := r.panel.popScreen }.reflowSurfaces
    | some (.restore above) =>
      { r with panel := { r.panel with above := r.panel.above.map fun _ => above } }.reflowSurfaces
  { undone with transition := none, transitionUndo := none }

def tickTransition (landed : Bool) : RenderLoop R :=
  match r.transition with
  | none => r
  | some t =>
    if t.driven || !landed then r
    else if t.springsBack then r.undoTransition
    else { r with transition := none, transitionUndo := none }

def aboveScreens : ℕ := r.panel.above.getD 0

def shellPush (outgoing : Bool) : RenderLoop R :=
  if r.panel.above.isNone then r
  else
    let begun := r.beginTransition false outgoing
    { begun with transitionUndo := some .pop, panel := r.panel.push }.reflowSurfaces

def shellBack (outgoing : Bool) : RenderLoop R :=
  if r.panel.depth ≤ 1 then r
  else
    let begun := r.beginTransition false outgoing
    { begun with
      transitionUndo := some (.restore r.aboveScreens)
      panel := r.panel.popScreen }.reflowSurfaces

def replaceTop : RenderLoop R :=
  if r.panel.above.isSome then { r with panel := r.panel.replaceTop }.reflowSurfaces else r

/-- Leave the screen for the panel `rested`, which is back at Home. -/
def leaveTo (rested : Panel) (outgoing : Bool) : RenderLoop R :=
  if 1 < r.panel.depth then
    let begun := r.beginTransition false outgoing
    { begun with transitionUndo := some (.restore r.aboveScreens), panel := rested }.reflowSurfaces
  else { r with panel := rested }.reflowSurfaces

def shellHome (outgoing : Bool) : RenderLoop R := r.leaveTo r.panel.goHome outgoing

def restPanel (outgoing : Bool) : RenderLoop R := r.leaveTo r.panel.rest outgoing

/-- Put the panel back to rest, unless somebody is using it. -/
def restPanelIfIdle (outgoing : Bool) (now : Instant) : RenderLoop R :=
  if r.lastTouch.any fun touched => now - touched < idleGrace then r else r.restPanel outgoing

def panelBack : RenderLoop R := { r with panel := r.panel.back }.reflowSurfaces

def panelRestore : RenderLoop R := { r with panel := r.panel.handToSession }.reflowSurfaces

/-! ## Commands -/

section Commands

variable [Float64 R]

/-- Install the strip for `model`, or take it down.  The projection is told of a
new item and of a new reading, and not of the same reading again. -/
def setTransport (model : TransportModel) (trackWidth : Option R) (newItem painted : Bool)
    (now : Instant) : RenderLoop R :=
  if model.isEmpty then { r with transport := none }
  else
    let running := model.state.isActive
    let position := model.position.getD 0
    let fresh : Projection R := .new position now running model.duration
    let projection := match r.transport with
      | none => fresh
      | some prev =>
        if newItem then fresh
        else if prev.model = model then prev.projection
        else prev.projection.observe position now running model.duration
    if painted then
      { r with
        transport := some
          { model, trackWidth, projection, painted := model.position,
            preview := r.transport.bind (·.preview) } }
    else r

def apply (now : Instant) : RenderCommand R → RenderLoop R
  | .video epoch landed =>
    -- A straggler of a session that has been cleared says nothing about the panel.
    if r.clearedThrough.any (epoch ≤ ·) then r
    else if landed then { r with videoClearDue := none }.setSurface .video true
    else { r with videoClearDue := none }
  | .nowPlaying model trackWidth newItem drawn painted =>
    let live := { r with cardClearDue := none, cardLayer := r.cardLayer || drawn }
    (live.setTransport model trackWidth newItem painted now).setSurface .card true
  | .clearVideo epoch =>
    { r with clearedThrough := some epoch, videoClearDue := some (now + clearGrace) }
  | .clearNowPlaying => { r with cardClearDue := some (now + clearGrace) }
  | .home => { r with panel := r.panel.setHome }.reflowSurfaces
  | .pushScreen outgoing => r.shellPush outgoing
  | .replaceScreen => r.replaceTop
  | .replaceScreenTagged onTop =>
    -- Home carries no tag
    if 1 < r.panel.depth && onTop then r.replaceTop else r
  | .shellBack outgoing => r.shellBack outgoing
  | .restPanel outgoing => r.restPanelIfIdle outgoing now
  | .addTap => { r with taps := r.taps + 1 }
  | .urlAudioOnly drawn => { r with cardLayer := r.cardLayer || drawn }

/-! ## The frame -/

/-- Repaint the strip if it has fallen behind. -/
def tickTransport (painted : Bool) (now : Instant) : RenderLoop R :=
  match r.transport with
  | none => r
  | some state =>
    match state.showing now with
    | none => r
    | some live =>
      if state.stale live && painted then
        { r with transport := some { state with painted := some live } }
      else r

end Commands

/-- When the panel should put itself back to rest, if it should. -/
def homeReturnDue : Option Instant :=
  r.lastTouch.bind fun last => if r.panel.awayFromRest then some (last + homeAfter) else none

/-- Return the panel to rest if it has been left alone long enough. -/
def tickHomeReturn (outgoing : Bool) (now : Instant) : RenderLoop R :=
  if r.homeReturnDue.any (· ≤ now) then r.restPanel outgoing else r

def barsShowing : Bool := r.cardLayer && r.panel.placement .card != .widget

/-- Draw the bars.  A silent reading counts as their having had their look. -/
def tickVisualizer (now : Instant) : RenderLoop R :=
  if r.visualizer.isSome && r.barsShowing then { r with barsTicked := some now } else r

def updateOsd (o : Outside R) (now : Instant) : RenderLoop R :=
  { r with osd := r.osd.map fun c => c.poll o.banners now r.size o.bannerDrawn }

def retireFinished : RenderLoop R :=
  if !r.panel.surfaces.card && r.motions .card = .absent then
    { r with cardLayer := false, transport := none }
  else r

def runVideoClear (now : Instant) : RenderLoop R :=
  if r.videoClearDue.any (· ≤ now) then
    { r with videoClearDue := none }.setSurface .video false
  else r

def runCardClear (now : Instant) : RenderLoop R :=
  if r.cardClearDue.any (· ≤ now) then
    { r with cardClearDue := none }.setSurface .card false
  else r

/-- A clear whose grace has run out starts the exit of its surface. -/
def runDueClears (now : Instant) : RenderLoop R :=
  ((r.runVideoClear now).runCardClear now).retireFinished

def presentAndServeTaps (tapsDone : ℕ) (now : Instant) : RenderLoop R :=
  let cleared := (r.runDueClears now).reflowSurfaces
  { cleared with taps := cleared.taps - tapsDone }

variable [Float64 R]

def beginFrame (o : Outside R) (now : Instant) : RenderLoop R :=
  let commanded := o.commands.foldl (fun r cmd => r.apply now cmd) r
  (commanded.tickTransition o.landed).tickMotion o

/-- One frame: commands, animations, strip, home return, bars, banner, present.
-/
def frame (o : Outside R) (now : Instant) : RenderLoop R :=
  let begun := (r.beginFrame o now).tickTransport o.painted now
  let ticked := (begun.tickHomeReturn o.outgoing now).tickVisualizer now
  (ticked.updateOsd o now).presentAndServeTaps o.tapsDone now

/-! ## What is owed -/

def visualizerDue (now : Instant) : Option Instant :=
  r.visualizer.bind fun analyzer =>
    if r.barsShowing && analyzer.isSounding now then
      some (r.barsTicked.elim now (· + frameInterval))
    else none

/-- When the strip next changes what it shows. -/
def transportDue (now : Instant) : Option Instant := r.transport.bind (·.due now)

/-- Whether something is in motion, or a tap wants every frame. -/
def owesFrame : Bool := r.transition.isSome || r.animating || r.taps ≠ 0

/-- When this loop next owes the glass a frame, from standing facts alone. -/
def demand (now : Instant) : Demand :=
  if r.owesFrame then .frame
  else .deadline ([r.videoClearDue, r.cardClearDue, r.transportDue now, r.visualizerDue now,
    r.homeReturnDue, r.osd.bind (·.nextChange)].filterMap id).min?

end RenderLoop

end Castaway.Kiosk
