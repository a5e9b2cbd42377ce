import Castaway.Core.Backlog
import Castaway.FCast.Steps

/-!
# The remote control of FCast

The session manager drives FCast through one remote control.  It moves the
player as a sender's command does, and what the player answers goes into the
manager's own queue.  `waits_for_itself` is a run in which the manager finds
that queue full.
-/

namespace Castaway.FCast

open Castaway.Core (SourceId SourceMessage SessionManager Loop LoopAction Answers Emissions)

/-- What the panel asks for, of the verbs that FCast honours. -/
def panelOf : Core.ControlTxn payloads → Option Inner.Panel
  | .play => some .play
  | .pause => some .pause
  | .stop => some .stop
  | .seek target => some (.seek target)
  | .volume (.bits level) => some (.volume level)
  | .mute muted => some (.mute muted)
  | .next => some .next
  | .previous => some .previous
  -- a level of the panel was never a double
  | .volume (.ofDouble _) => none
  | .setQueue _ _ | .shuffle _ | .repeatMode _ => none

/-- A `Play` is followed by the control surface, which only the source that
holds the screen may put up. -/
def spliced (events : List SessionEvent) : List SessionEvent :=
  events.flatMap fun event =>
    match event with
    | .play .. => [event, .controlSurface .fCast]
    | _ => [event]

namespace Inner

/-- What FCast emits when it is asked by the manager. -/
def emissions (shared : Shared) (env : Env) (source : SourceId) (inner : Inner) :
    Emissions payloads where
  issue := fun _ txn =>
    match panelOf txn with
    | some panel => (emitted (inner.issue shared env panel).2).events.map (⟨source, ·⟩)
    | none => []
  mediaEnded := fun _ ending =>
    (spliced (emitted (inner.mediaEnded shared env ending).2).events).map (⟨source, ·⟩)

/-! ### A full queue -/

def fcast : SourceId := ⟨.fCast, "listener"⟩

/-- A version 4 sender sends a film. -/
def filmSent : List Action :=
  [.connectV4 0, .v4Frame 0 0 (.flatbuf (some (.load (some (.single
    ⟨"video/mp4", "http://h/v.mp4", none, none, none, none, none, none, none, none⟩)))))]

def filmLoaded : Inner × Output :=
  (run exampleShared filmSent).step exampleShared (.applyCommand exampleEnv 0)

/-- Everything outside does as it is asked. -/
def obliging : Answers payloads where
  pipeline := fun _ => .ok ()
  powerOn := .ok ()
  selectInput := fun _ => .ok ()
  capabilities := fun _ => .NONE
  issue := fun _ _ => .ok ()
  mediaEnded := fun _ _ => .ok ()

/-- The manager hears the next message, while FCast plays the film. -/
def hearing : LoopAction payloads :=
  .serveMessage obliging (filmLoaded.1.emissions exampleShared exampleEnv fcast)

/-- The film is on the screen when a phone takes it, and before the manager has
asked FCast to pause, the queue has filled up with what the phone says next. -/
def crowded : List (LoopAction payloads) :=
  (spliced filmLoaded.2.events).flatMap
    (fun event => [.send ⟨fcast, event⟩, hearing, .advance]) ++
  [.send ⟨⟨.bluetooth, "phone"⟩, .audio (0 : ℕ) (0 : ℕ) none⟩, hearing] ++
    List.replicate 64 (.send ⟨⟨.bluetooth, "phone"⟩, .nowPlaying (⟨none, none⟩ : NowPlaying)⟩)

set_option maxRecDepth 4000 in
/-- The manager waits for room in the queue that only it drains. -/
theorem waits_for_itself : ((Loop.new false false .default).run 64 crowded).Stuck 64 :=
  ⟨List.cons_ne_nil _ _, Nat.le_refl 64⟩

end Inner

end Castaway.FCast
