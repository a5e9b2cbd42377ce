import Castaway.Lib.JsonValue

/-!
# Lounge commands

What a YouTube remote sends over the Lounge: a name and a JSON payload.
`toEvent` is what the receiver makes of one.  What parses a URL and the curve of
the volume slider come from elsewhere and are `Env`.
-/

namespace Castaway.Dial

open Castaway.Json (Value)

/-- A command, and its number in the session. -/
structure LoungeCommand where
  aid : ℤ
  name : String
  payload : Value

inductive ControlTxn (Uri Volume : Type*) where
  | play
  | pause
  | stop
  | seek (position : Duration64)
  | volume (v : Volume)
  | next
  | previous
  | setQueue (items : List Uri) (startIndex : ℕ)
  deriving DecidableEq

structure Env (Uri Volume : Type*) where
  /-- `MediaUri::parse`. -/
  mediaUri : String → Option Uri
  /-- `Volume::from_position`. -/
  fromPosition : ℚ → Volume

variable {Uri Volume : Type*} (env : Env Uri Volume)

/-- The page of a video, which the pipeline finds the stream of. -/
def videoUrl (videoId : String) : Option Uri :=
  env.mediaUri ("https://www.youtube.com/watch?v=" ++ videoId)

def videoIds (payload : Value) : List String :=
  let one := ((payload.get "videoId").bind Value.asString).toList
  match (payload.get "videoIds").bind Value.asString with
  | some csv => if csv.isEmpty then one else (csv.toList.splitOn ',').map String.ofList
  | none => one

def setPlaylist (payload : Value) : Option (ControlTxn Uri Volume) :=
  let items := (videoIds payload).filterMap (videoUrl env)
  if items.isEmpty then none
  else
    let index := (payload.get "currentIndex").bind Value.asI64
    let index := (index.filter (0 ≤ ·)).getD 0
    some (.setQueue items (min index.toNat (items.length - 1)))

/-- What a command asks of playback.  The informational ones ask for nothing. -/
def toEvent (cmd : LoungeCommand) : Except Panic (Option (ControlTxn Uri Volume)) :=
  if cmd.name = "setPlaylist" ∨ cmd.name = "updatePlaylist" then .ok (setPlaylist env cmd.payload)
  else if cmd.name = "play" then .ok (some .play)
  else if cmd.name = "pause" then .ok (some .pause)
  else if cmd.name = "stopVideo" then .ok (some .stop)
  else if cmd.name = "next" then .ok (some .next)
  else if cmd.name = "previous" then .ok (some .previous)
  else if cmd.name = "seekTo" then
    match (cmd.payload.get "newTime").bind Value.asF64 with
    | none => .ok none
    | some secs => (Duration64.fromSecs (secs.max (.real 0))).map fun offset => some (.seek offset)
  else if cmd.name = "setVolume" then
    match (cmd.payload.get "volume").bind Value.asF64 with
    | some (.real vol) => .ok (some (.volume (env.fromPosition (vol / 100))))
    | _ => .ok none
  else .ok none

end Castaway.Dial
