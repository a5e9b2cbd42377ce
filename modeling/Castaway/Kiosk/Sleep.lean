import Castaway.Kiosk.RenderLoop

/-!
# How the kiosk's loop sleeps

Between two events the loop asks `KioskApp.demand` what it owes the glass and
sleeps until then.  The answer is made afresh on every pass, from facts that
stand.

The model is of the kiosk from the moment its window is up, with the browser
host idle.  Whatever an event does to what keeps time is a list of `Effect`s,
and a handler reads one clock.
-/

namespace Castaway.Kiosk

/-! ## The arrow and the pill -/

/-- How long the cursor stays up after the pointer stops being used. -/
def hold : Duration := millis 1500

/-- Whether the pointer should be drawn, `used` after its last use. -/
def shown (used : Option Duration) (contact : Bool) : Bool := contact || used.any (· < hold)

/-- When the cursor's visibility next changes on its own. -/
def nextChange (used : Option Duration) (contact : Bool) : Option Duration :=
  if contact then none
  else used.bind fun since =>
    if hold < since then none else if hold - since = 0 then none else some (hold - since)

def pillHold : Duration := millis 2200

def pillFade : Duration := millis 600

/-! ## The kiosk -/

structure KioskApp (R : Type*) where
  render : RenderLoop R
  dirty : Bool := true
  pillSince : Option Instant := none
  pillDrawn : Bool := false
  pointerUsed : Option Instant := none
  pointerContact : Bool := false
  cursorShown : Option Bool := none
  nextFrameAt : Option Instant := none
  frameInterval : Duration

/-- What a handler of an event does to what keeps time.  An event that navigates
comes with whether the screen that is left could be drawn. -/
inductive Effect (R : Type*) where
  | wakeCursor
  | sleepCursor
  | pointerContact (down : Bool)
  | wakePill
  | noteTouch
  | home (outgoing : Bool)
  | back
  | restore
  | foreground
  | push (outgoing : Bool)
  | pop (outgoing : Bool)
  | page (surface : Surface) (present : Bool)
  | drive
  | release (springsBack : Bool)
  | preview (fraction : Option R)
  | resize (size : ℕ × ℕ)
  deriving DecidableEq

namespace KioskApp

variable {R : Type*} (k : KioskApp R)

def perform (now : Instant) : Effect R → KioskApp R
  | .wakeCursor => { k with pointerUsed := some now }
  | .sleepCursor => { k with pointerUsed := none }
  | .pointerContact down => { k with pointerContact := down }
  | .wakePill => { k with pillSince := some now }
  | .noteTouch => { k with render := { k.render with lastTouch := some now } }
  | .home outgoing => { k with render := k.render.shellHome outgoing }
  | .back => { k with render := k.render.panelBack }
  | .restore => { k with render := k.render.panelRestore }
  | .foreground =>
    { k with render := { k.render with panel := k.render.panel.handToShell }.reflowSurfaces }
  | .push outgoing => { k with render := k.render.shellPush outgoing }
  | .pop outgoing => { k with render := k.render.shellBack outgoing }
  | .page surface present => { k with render := k.render.setSurface surface present }
  | .drive =>
    { k with render :=
      { k.render with transition := k.render.transition.map fun t => { t with driven := true } } }
  | .release springsBack =>
    { k with render :=
      { k.render with transition := k.render.transition.map fun _ => ⟨false, springsBack⟩ } }
  | .preview fraction =>
    { k with render :=
      { k.render with
        transport := k.render.transport.map fun state => { state with preview := fraction } } }
  | .resize size => { k with render := { k.render with size } }

/-- Any event earns the panel one more frame. -/
def event (effects : List (Effect R)) (now : Instant) : KioskApp R :=
  { effects.foldl (fun k effect => k.perform now effect) k with dirty := true }

/-- The pill is up while a session fills the panel, and brighter while a touch
is fresh. -/
def tickPill (drawn : Bool) (now : Instant) : KioskApp R :=
  if k.render.panel.focus ≠ .session then { k with pillDrawn := false, pillSince := none }
  else if !k.pillDrawn && !drawn then { k with pillSince := none }
  else
    { k with
      pillDrawn := true
      pillSince := k.pillSince.filter fun since => now - since < pillHold + pillFade }

def tickCursor (now : Instant) : KioskApp R :=
  { k with cursorShown := some (shown (k.pointerUsed.map (now - ·)) k.pointerContact) }

variable [Float64 R]

/-- The handler of a redraw, the browser being idle. -/
def redraw (o : Outside R) (pillDrawn : Bool) (now : Instant) : KioskApp R :=
  let paced := { k with dirty := false, nextFrameAt := some (now + k.frameInterval) }
  let drawn := (paced.tickPill pillDrawn now).tickCursor now
  { drawn with render := drawn.render.frame o now }

def demand (now : Instant) : Demand :=
  let demand := if k.dirty || k.pillSince.isSome then Demand.frame else .idle
  let demand := demand.merge (k.render.demand now)
  match nextChange (k.pointerUsed.map (now - ·)) k.pointerContact with
  | some next => demand.merge (.at (now + next))
  | none => demand

end KioskApp

/-! ## The loop -/

/-- What the loop does next.  A pass may ask for a redraw, wait for the display,
or sleep until an instant or for good; `asked` is when it asked what it owed. -/
inductive Turn where
  | busy
  | redraw
  | capped (due : Instant)
  | sleeping (asked : Instant) (until_ : Option Instant)
  deriving DecidableEq, Repr

structure Loop (R : Type*) where
  kiosk : KioskApp R
  now : Instant := 0
  turn : Turn := .busy

/-- What can happen: time goes by, an event arrives, the mixer hears something,
the loop makes a pass, a redraw is handled. -/
inductive Step (R : Type*) where
  | advance (elapsed : Duration)
  | event (effects : List (Effect R))
  | hear
  | aboutToWait
  | redraw (outside : Outside R) (pillDrawn : Bool)

namespace Loop

variable {R : Type*} [Float64 R] (s : Loop R)

def aboutToWait : Turn :=
  match s.kiosk.demand s.now with
  | .frame =>
    match s.kiosk.nextFrameAt.filter (s.now < ·) with
    | none => .redraw
    | some due => .capped due
  | .at instant => if instant ≤ s.now then .redraw else .sleeping s.now (some instant)
  | .idle => .sleeping s.now none

/-- The mixer feeds the analyzer, and wakes nobody. -/
def hear : Loop R :=
  { s with kiosk.render.visualizer := s.kiosk.render.visualizer.map fun _ => ⟨some s.now⟩ }

def step : Step R → Loop R
  | .advance elapsed => { s with now := s.now + elapsed }
  | .event effects => { s with kiosk := s.kiosk.event effects s.now, turn := .busy }
  | .hear => s.hear
  | .aboutToWait => { s with turn := s.aboutToWait }
  | .redraw outside pillDrawn =>
    { s with kiosk := s.kiosk.redraw outside pillDrawn s.now, turn := .busy }

end Loop

end Castaway.Kiosk
