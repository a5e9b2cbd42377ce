import Castaway.Dial.Lounge

/-!
# What the Lounge says about playback

SponsorBlock listens to the Lounge for which video plays and how far it has
come.
-/

namespace Castaway.SponsorBlock

open Castaway.Dial (LoungeCommand)
open Castaway.Json (Value)

def isVideoId (t : List Char) : Bool :=
  t.length == 11 && t.all fun c => c.isAlphanum || c == '-' || c == '_'

/-- Eleven characters of URL-safe base64. -/
abbrev VideoId := { t : List Char // isVideoId t = true }

namespace VideoId

/-- `VideoId::parse`.  The length is counted in bytes. -/
def parse (raw : List Char) : Except String VideoId :=
  if (raw.map Char.utf8Size).sum ≠ 11 then .error "not 11 characters"
  else if h : isVideoId raw then .ok ⟨raw, h⟩
  else .error "unexpected characters"

end VideoId

/-- What a `nowPlaying` or an `onStateChange` says. -/
structure PlaybackUpdate where
  video : VideoId
  position : Duration64
  playing : Bool

/-- A time in a payload: a text that reads as a number, or a number. -/
def readTime (v : Value) : Option F64 :=
  (v.asString.bind fun s => F64.parse s.toList) <|> v.asF64

/-- The states in which the player stands still.  Whatever else it says counts
as playing. -/
def stillStates : List String := ["2", "3", "-1", "0", "5"]

def playbackNews (command : LoungeCommand) : Option (List (String × Value) × VideoId) :=
  if command.name = "nowPlaying" ∨ command.name = "onStateChange" then
    command.payload.asObject.bind fun payload =>
      ((payload.lookup "videoId").bind Value.asString).bind fun video =>
        (VideoId.parse video.toList).toOption.map fun video => (payload, video)
  else none

/-- The video and the position a command tells of.  One without a time is at the
start. -/
def playbackUpdate (command : LoungeCommand) : Except Panic (Option PlaybackUpdate) :=
  match playbackNews command with
  | none => .ok none
  | some (payload, video) =>
    let position := ((payload.lookup "currentTime").bind readTime).getD (.real 0)
    let state := ((payload.lookup "state").bind Value.asString).getD "1"
    (Duration64.fromSecs (position.max (.real 0))).map fun position =>
      some { video, position, playing := !stillStates.contains state }

end Castaway.SponsorBlock
