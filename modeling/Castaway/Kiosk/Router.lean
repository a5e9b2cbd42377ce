import Castaway.Kiosk.Strip
import Mathlib.Logic.Function.Basic

/-!
# Routing contacts

A contact is a finger on the glass, the mouse button held down, or a finger of a
remote peer.  Every phase of it is offered to the panel's own layers, one after
the other, and what none of them consumes goes to the session's touch surface,
or else to the browser.

Where a point lies is brought in with the input (`Glass`): each layer answers
afresh for every phase of every contact, and nothing relates its answers.  The
two sinks are as they are in the source, which forward the moves and the end of
a contact only if they took its press.  `Sink.log` is what a sink forwards, and
`Router.held`, `Router.scrub` and `Router.issued` are a record of the run that
the source does not keep.
-/

namespace Castaway.Kiosk

open Function

/-- The device that a contact is on. -/
inductive InputOrigin where
  | panel
  | panelPointer
  | remote (peer : ℕ)
  deriving DecidableEq, Repr

/-- A contact, by its device and its number there. -/
structure ContactId where
  origin : InputOrigin
  raw : ℕ
  deriving DecidableEq, Repr

def ContactId.pointer : ContactId := ⟨.panelPointer, 0⟩

inductive TouchPhase where
  | down
  | move
  | up
  | cancel
  deriving DecidableEq, Repr

/-! ## The sinks -/

/-- What a sink forwards of its contacts, or is told to let go of. -/
inductive Forwarded where
  | touch (phase : TouchPhase) (id : ContactId)
  | cancelAll
  | cancelOrigin (origin : InputOrigin)
  deriving DecidableEq, Repr

/-- The browser or a session's surface: the contacts it believes are down. -/
structure Sink where
  live : ContactId → Bool := fun _ => false
  log : List Forwarded := []

namespace Sink

variable (sink : Sink)

/-- A press counts where the sink has something, and the rest of a contact
counts if its press did. -/
def touch (phase : TouchPhase) (id : ContactId) (inside : Bool) : Sink :=
  match phase with
  | .down =>
    if inside then
      { live := update sink.live id true, log := sink.log ++ [.touch .down id] }
    else sink
  | .move =>
    if sink.live id && inside then { sink with log := sink.log ++ [.touch .move id] } else sink
  | .up =>
    if sink.live id then
      { live := update sink.live id false, log := sink.log ++ [.touch .up id] }
    else sink
  | .cancel =>
    if sink.live id then
      { live := update sink.live id false, log := sink.log ++ [.touch .cancel id] }
    else sink

def cancelAll : Sink := { live := fun _ => false, log := sink.log ++ [.cancelAll] }

def cancelOrigin (origin : InputOrigin) : Sink where
  live id := sink.live id && id.origin ≠ origin
  log := sink.log ++ [.cancelOrigin origin]

end Sink

/-! ## What lies under a point -/

/-- What the panel should do about a contact moving on the reserved edge. -/
inductive EdgeDrag where
  | ignore
  | home
  | begin
  | carry
  deriving DecidableEq, Repr

/-- What a touch landed on: a button, or the scrub track at a fraction of the
item. -/
inductive TransportHit (F : Type*) where
  | press (control : TransportControl)
  | scrub (fraction : F)
  deriving DecidableEq

/-- A transaction: what a button stands for, or a seek. -/
inductive ControlTxn (F : Type*) where
  | press (control : TransportControl)
  | seek (fraction : F)
  deriving DecidableEq

/-- What the layers answer for one phase of one contact.  `restores` is a
demoted surface or its badge, `hit` and `track` are the strip's layout, and
`inside` is the sink's viewport. -/
structure Glass (F : Type*) where
  restores : Bool := false
  onPill : Bool := false
  fromEdge : Bool := false
  drag : EdgeDrag := .ignore
  backs : Bool := false
  covered : Bool := false
  hit : Option (TransportHit F) := none
  track : Option F := none
  supportsPress : Bool := true
  supportsSeek : Bool := true
  shellHit : Bool := false
  shellScrollable : Bool := false
  shellScrolls : Bool := false
  inside : Bool := true
  deriving DecidableEq

/-- When in a touch's life the strip is asked about it. -/
inductive StripPhase where
  | press
  | drag
  | release
  deriving DecidableEq, Repr

def offer (phase : TouchPhase) (scrubbing : Bool) : Option StripPhase :=
  match phase, scrubbing with
  | .down, _ => some .press
  | .up, _ => some .release
  | .move, true => some .drag
  | .move, false => none
  | .cancel, _ => none

inductive StripTouch (F : Type*) where
  | act (hit : TransportHit F)
  | preview (fraction : F)
  deriving DecidableEq

namespace Glass

variable {F : Type*} (g : Glass F)

/-- Buttons fire on press and the scrub track on release. -/
def touch : StripPhase → Option (StripTouch F)
  | .drag => g.track.map .preview
  | .press => g.hit.map fun hit =>
    match hit with
    | .press control => .act (.press control)
    | .scrub fraction => .preview fraction
  | .release => g.hit.bind fun hit =>
    match hit with
    | .press _ => none
    | .scrub fraction => some (.act (.scrub fraction))

def action : TransportHit F → Option (ControlTxn F)
  | .press control => if g.supportsPress then some (.press control) else none
  | .scrub fraction => if g.supportsSeek then some (.seek fraction) else none

end Glass

/-! ## The router -/

/-- A transaction that was sent, and the contact and phase that sent it.
`scrub` numbers the scrub that the contact's press began, if it began one. -/
structure Issued (F : Type*) where
  txn : ControlTxn F
  id : ContactId
  phase : TouchPhase
  scrub : Option ℕ
  deriving DecidableEq

structure Router (F : Type*) where
  /-- The contacts on the glass, and whether each began in the reserved edge. -/
  contacts : List (ContactId × Bool) := []
  startedDrag : Bool := false
  scrubbing : Option ContactId := none
  dragLast : List ContactId := []
  pointerContact : Bool := false
  /-- Whether a strip is up, and where the finger on its track is. -/
  strip : Bool := false
  preview : Option F := none
  browser : Option Sink := none
  /-- The surfaces that sessions have published so far, and the one that is up.
  -/
  surfaces : ℕ → Sink := fun _ => {}
  surface : Option ℕ := none
  published : ℕ := 0
  held : ContactId → Bool := fun _ => false
  scrub : ContactId → Option ℕ := fun _ => none
  scrubs : ℕ := 0
  issued : List (Issued F) := []

namespace Router

variable {F : Type*} (r : Router F)

def goHome : Router F := { r with browser := r.browser.map Sink.cancelAll }

/-- Escape takes the panel from the browser too. -/
def backOneLevel : Router F := { r with browser := r.browser.map Sink.cancelAll }

def insertContact (id : ContactId) (fromEdge : Bool) : Router F :=
  { r with contacts := (id, fromEdge) :: r.contacts.filter (·.1 ≠ id) }

def removeContact (id : ContactId) : Router F :=
  { r with contacts := r.contacts.filter (·.1 ≠ id) }

def fromEdge (id : ContactId) : Bool := r.contacts.lookup id = some true

def dragEdge (g : Glass F) : Router F :=
  match g.drag with
  | .ignore => r
  | .home => r.goHome
  | .begin => if g.backs then { r with startedDrag := true } else r
  | .carry => r

/-- The navigation layer: demoted surfaces, the home pill and the reserved edge.
-/
def routeNavigation (phase : TouchPhase) (id : ContactId) (g : Glass F) : Router F × Bool :=
  match phase with
  | .down =>
    if g.restores then (r, true)
    else if g.onPill then (r.goHome, true)
    else (r.insertContact id g.fromEdge, g.fromEdge)
  | .move => if r.fromEdge id then (r.dragEdge g, true) else (r, false)
  | .up | .cancel => ({ r.removeContact id with startedDrag := false }, r.fromEdge id)

def transportOwns (g : Glass F) : Bool := r.strip && !g.covered && g.hit.isSome

def transportAction (phase : StripPhase) (g : Glass F) : Router F × Option (ControlTxn F) :=
  if !r.strip || g.covered then (r, none)
  else match g.touch phase with
    | none => (r, none)
    | some (.preview fraction) => ({ r with preview := some fraction }, none)
    | some (.act hit) => ({ r with preview := none }, g.action hit)

/-- Offer a phase to the strip.  A captured drag need not be over it. -/
def offerToTransport (stripPhase : StripPhase) (phase : TouchPhase) (id : ContactId) (g : Glass F) :
    Router F × Bool :=
  if stripPhase ≠ .drag && !r.transportOwns g then (r, false)
  else
    let acted := r.transportAction stripPhase g
    let issued := acted.2.toList.map fun txn => ⟨txn, id, phase, r.scrub id⟩
    ({ acted.1 with issued := acted.1.issued ++ issued }, true)

/-- A press that the strip answered with a preview begins a scrub. -/
def beginScrub (id : ContactId) : Router F :=
  { r with
    scrubbing := some id
    scrub := update r.scrub id (some r.scrubs)
    scrubs := r.scrubs + 1 }

def endScrub : Router F := { r with scrubbing := none, preview := none }

def routeStrip (phase : TouchPhase) (id : ContactId) (g : Glass F) : Router F × Bool :=
  let scrubbing : Bool := r.scrubbing = some id
  let unwound := if scrubbing && phase = .cancel then r.endScrub else r
  match offer phase scrubbing with
  | none => (unwound, false)
  | some stripPhase =>
    let offered := unwound.offerToTransport stripPhase phase id g
    let kept := match phase with
      | .down =>
        if offered.2 && offered.1.preview.isSome && offered.1.strip then offered.1.beginScrub id
        else offered.1
      | .up => if scrubbing then offered.1.endScrub else offered.1
      | .move => offered.1
      | .cancel => offered.1
    (kept, offered.2)

/-- The shell's part: presses on its screens, and drags that scroll them. -/
def routeShell (phase : TouchPhase) (id : ContactId) (g : Glass F) : Router F × Bool :=
  match phase with
  | .down =>
    if g.restores then (r, true)
    else if g.shellHit then ({ r with dragLast := r.dragLast.filter (· ≠ id) }, true)
    else if g.shellScrollable then ({ r with dragLast := id :: r.dragLast.filter (· ≠ id) }, false)
    else (r, false)
  | .move => (r, decide (id ∈ r.dragLast) && g.shellScrolls)
  | .up | .cancel => ({ r with dragLast := r.dragLast.filter (· ≠ id) }, false)

/-- Route one contact through the panel's own layers.  Returns whether it was
consumed. -/
def routeContact (phase : TouchPhase) (id : ContactId) (g : Glass F) : Router F × Bool :=
  let navigated := r.routeNavigation phase id g
  if navigated.2 then (navigated.1, true)
  else
    let stripped := navigated.1.routeStrip phase id g
    if stripped.2 then (stripped.1, true) else stripped.1.routeShell phase id g

/-- Hand a contact to the session that holds the glass, if one does. -/
def deliverTouch (phase : TouchPhase) (id : ContactId) (g : Glass F) : Router F × Bool :=
  match r.surface with
  | none => (r, false)
  | some n =>
    ({ r with surfaces := update r.surfaces n ((r.surfaces n).touch phase id g.inside) },
      true)

/-- Hand a contact to the browser, which takes a press inside its viewport and
follows it anywhere. -/
def toBrowser (phase : TouchPhase) (id : ContactId) (g : Glass F) : Router F :=
  { r with browser := r.browser.map (·.touch phase id (g.inside || phase ≠ .down)) }

/-- One phase of a contact, from the glass, the mouse button or a peer. -/
def applyContact (phase : TouchPhase) (id : ContactId) (g : Glass F) : Router F :=
  let routed := r.routeContact phase id g
  if routed.2 then routed.1
  else
    let delivered := routed.1.deliverTouch phase id g
    if delivered.2 then delivered.1 else delivered.1.toBrowser phase id g

/-- The mouse moves: a held button is a contact, and anything else is a hover,
which the browser forwards for a window that holds the button. -/
def applyPointerMove (g : Glass F) : Router F :=
  if r.pointerContact then r.applyContact .move .pointer g else r.toBrowser .move .pointer g

def applyPointerButton (down : Bool) (g : Glass F) : Router F :=
  { r with pointerContact := down }.applyContact (if down then .down else .up) .pointer g

/-- A peer has gone away: its contacts are routed as cancels, and the browser
lets go. -/
def forgetOrigin (origin : InputOrigin) (g : Glass F) : Router F :=
  let doomed := (r.contacts.map (·.1)).filter (·.origin = origin)
  let routed := doomed.foldl (fun r id => (r.routeContact .cancel id g).1) r
  { routed with
    contacts := routed.contacts.filter (·.1.origin ≠ origin)
    dragLast := routed.dragLast.filter (·.origin ≠ origin)
    browser := routed.browser.map (·.cancelOrigin origin) }

/-- The session publishes a surface or takes it back.  The outgoing one lets go.
-/
def setSurface (present : Bool) : Router F :=
  let surfaces := match r.surface with
    | none => r.surfaces
    | some n => update r.surfaces n (r.surfaces n).cancelAll
  if present then
    { r with surfaces, surface := some r.published, published := r.published + 1 }
  else { r with surfaces, surface := none }

/-- A strip comes up or goes, and a preview goes with it. -/
def setStrip (present : Bool) : Router F :=
  { r with strip := present, preview := if present then r.preview else none }

end Router

/-- What can happen to the router. -/
inductive Routed (F : Type*) where
  | touch (phase : TouchPhase) (id : ContactId) (glass : Glass F)
  | button (down : Bool) (glass : Glass F)
  | hover (glass : Glass F)
  | gone (peer : ℕ) (glass : Glass F)
  | home
  | escape
  | setSurface (present : Bool)
  | setStrip (present : Bool)

namespace Router

variable {F : Type*}

/-- Note in the record that a contact is down, or that it has ended. -/
def note (r : Router F) (phase : TouchPhase) (id : ContactId) : Router F :=
  match phase with
  | .down => { r with held := update r.held id true }
  | .move => r
  | .up | .cancel =>
    { r with
      held := update r.held id false
      scrub := update r.scrub id none }

def step (r : Router F) : Routed F → Router F
  | .touch phase id glass => (r.applyContact phase id glass).note phase id
  | .button down glass =>
    (r.applyPointerButton down glass).note (if down then .down else .up) .pointer
  | .hover glass => r.applyPointerMove glass
  | .gone peer glass =>
    let forgotten := r.forgetOrigin (.remote peer) glass
    { forgotten with
      held := fun id => forgotten.held id && id.origin ≠ .remote peer
      scrub := fun id => if id.origin = .remote peer then none else forgotten.scrub id }
  | .home => r.goHome
  | .escape => r.backOneLevel
  | .setSurface present => r.setSurface present
  | .setStrip present => r.setStrip present

end Router

end Castaway.Kiosk
