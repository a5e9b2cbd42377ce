import Castaway.AirPlay.Negotiation
import Castaway.Lib.Real64
import Castaway.Lib.Utf8

/-!
# AirPlay video requests

The requests by which a phone has the receiver play a URL.  `parse` finds the
command in one, and `StartPosition.resolve` the offset it starts at once the
length is known.  What reads a property list and what parses a URL are
`Libraries`.
-/

namespace Castaway.AirPlay.Video

/-! ## Commands -/

/-- `0.0` or `1.0`, the two rates a phone uses. -/
inductive Rate where
  | paused
  | playing
  deriving DecidableEq, Repr

/-- Where playback is to begin: a share of the item, which needs its length, or
an offset. -/
inductive StartPosition where
  | fraction (f : F64)
  | seconds (offset : Duration64)
  deriving DecidableEq

/-- The offset, given a length to take a share of. -/
def StartPosition.resolve (start : StartPosition) (duration : Option Duration64) :
    Except Panic (Option Duration64) :=
  match start with
  | seconds offset => .ok (some offset)
  | fraction f =>
    if f.le (.real 0) then .ok (some .zero)
    else
      match duration with
      | none => .ok none
      | some total => (total.mul (f.clamp (.real 0) (.real 1))).map some

theorem StartPosition.resolve_fraction (f : F64) (duration : Option Duration64) :
    (StartPosition.fraction f).resolve duration =
      if f.le (.real 0) then .ok (some .zero)
      else (duration.map fun total => (total.mul (f.clamp (.real 0) (.real 1))).map some).getD
        (.ok none) := by
  cases duration <;> rfl

inductive VideoCommand (Uri : Type*) where
  | play (source : Uri) (start : Option StartPosition)
  | scrub (offset : Duration64)
  | rate (rate : Rate)
  | stop
  deriving DecidableEq

inductive VideoEndpoint where
  | play
  | scrub
  | rate
  | stop
  | playbackInfo
  | action
  | reverse
  deriving DecidableEq, Repr

/-- The one refusal of these requests. -/
inductive AirPlayError where
  | plist (message : String)
  deriving DecidableEq, Repr

/-! ## Property lists -/

namespace Plist

inductive Value where
  | string (s : Text)
  | real (x : F64)
  | integer (n : ℤ)
  | dictionary (entries : List (String × Value))
  | other

def Value.asDictionary : Value → Option (List (String × Value))
  | dictionary entries => some entries
  | _ => none

def Value.asString : Value → Option Text
  | string s => some s
  | _ => none

/-- An integer counts when it is signed and of 64 bits. -/
def Value.asReal : Value → Option F64
  | real x => some x
  | integer n => if -2 ^ 63 ≤ n ∧ n < 2 ^ 63 then some (.real n) else none
  | _ => none

end Plist

structure Libraries (Uri : Type*) where
  /-- `plist::Value::from_reader`, with what its error says. -/
  plist : Bytes → Except String Plist.Value
  /-- `MediaUri::parse`. -/
  mediaUri : Text → Except String Uri

variable {Uri : Type*} (lib : Libraries Uri)

/-! ## Requests -/

def splitOnce (c : Char) (t : Text) : Option (Text × Text) :=
  if c ∈ t then some (t.takeWhile (· != c), (t.dropWhile (· != c)).tail) else none

def query (path : Text) (key : String) : Option Text :=
  (splitOnce '?' path).bind fun parts =>
    (parts.2.splitOn '&').findSome? fun pair =>
      ((splitOnce '=' pair).filter fun named => named.1 = key.toList).map Prod.snd

/-- What a `/play` body says. -/
structure Fields where
  location : Option Text := none
  fraction : Option F64 := none
  seconds : Option F64 := none

/-- A line of a body in text.  A later line wins. -/
def Fields.line (fields : Fields) (line : Text) : Fields :=
  match splitOnce ':' line with
  | none => fields
  | some (key, value) =>
    let key := String.ofList ((Text.trim key).map Char.toLower)
    let value := Text.trim value
    if key = "content-location" then { fields with location := some value }
    else if key = "start-position" then { fields with fraction := F64.parse value }
    else if key = "start-position-seconds" then { fields with seconds := F64.parse value }
    else fields

/-- The fields of a `/play` body, in either of its two shapes. -/
def playFields (body : Bytes) : Except AirPlayError Fields :=
  if (utf8 "bplist00").isPrefixOf body then
    match lib.plist body with
    | .error e => .error (.plist e)
    | .ok value =>
      match value.asDictionary with
      | none => .error (.plist "a /play plist that is not a dictionary")
      | some dict =>
        .ok { location := (dict.lookup "Content-Location").bind Plist.Value.asString
              fraction := (dict.lookup "Start-Position").bind Plist.Value.asReal
              seconds := (dict.lookup "Start-Position-Seconds").bind Plist.Value.asReal }
  else
    match Text.ofUtf8 body with
    | none => .error (.plist "a /play body that is neither a plist nor text")
    | some text => .ok ((Text.lines text).foldl Fields.line {})

/-- What a `/play` body asks to play, once it is not refused. -/
def playRequest (body : Bytes) : Except AirPlayError (Uri × Fields) :=
  match playFields lib body with
  | .error e => .error e
  | .ok fields =>
    match fields.location with
    | none => .error (.plist "a /play body with no Content-Location")
    | some location =>
      match lib.mediaUri location with
      | .error e => .error (.plist ("a /play URL that will not parse: " ++ e))
      | .ok source => .ok (source, fields)

/-- Where playback starts.  Seconds win over a fraction, and a fraction of zero
is what a phone says that has no start in mind. -/
def startOf (fields : Fields) : Except Panic (Option StartPosition) :=
  match fields.seconds with
  | some s => (Duration64.fromSecs (s.max (.real 0))).map fun offset => some (.seconds offset)
  | none => .ok ((fields.fraction.map StartPosition.fraction).filter (· ≠ .fraction (.real 0)))

/-- `POST /play`. -/
def parsePlay (body : Bytes) : Except Panic (Except AirPlayError (VideoCommand Uri)) :=
  match playRequest lib body with
  | .error e => .ok (.error e)
  | .ok (source, fields) => (startOf fields).map fun start => .ok (.play source start)

/-- The command a request carries, if it carries one. -/
def parse (endpoint : VideoEndpoint) (path : Text) (body : Bytes) :
    Except Panic (Except AirPlayError (Option (VideoCommand Uri))) :=
  match endpoint with
  | .play => (parsePlay lib body).map fun result => result.map some
  | .scrub =>
    -- the position is in the query, and a read has none
    match (query path "position").bind F64.parse with
    | none => .ok (.ok none)
    | some seconds =>
      (Duration64.fromSecs (seconds.max (.real 0))).map fun offset => .ok (some (.scrub offset))
  | .rate =>
    match (query path "value").bind F64.parse with
    | none => .ok (.ok none)
    | some value =>
      .ok (.ok (some (.rate (if F64.le (.real (1 / 2)) value then .playing else .paused))))
  | .stop => .ok (.ok (some .stop))
  | .action => .ok (.ok none)
  | .playbackInfo => .ok (.ok none)
  | .reverse => .ok (.ok none)

end Castaway.AirPlay.Video
