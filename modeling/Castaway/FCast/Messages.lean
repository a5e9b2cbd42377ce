import Castaway.Core.Event
import Castaway.Lib.Bytes
import Castaway.Lib.Result
import Mathlib.Data.List.Sort

/-!
# What FCast senders and the receiver say to each other

The media a sender describes, in the two shapes it comes in: the JSON
`PlayMessage` of protocol versions 1 to 3 and the `V4MediaItem` of version 4;
the updates the receiver has for its senders; and the answers to what it
refuses.

Two libraries are parameters, as `Libraries`: what parses a URL and what parses
JSON.  A floating-point number is kept as where it came from, since nothing here
computes with one beyond a comparison.
-/

namespace Castaway.FCast

/-! ## Numbers -/

/-- A double: read from the wire, widened from a single, or a duration in
seconds. -/
inductive Double where
  | bits (b : UInt64)
  | ofSingle (b : UInt32)
  | ofNanos (n : ℕ)
  deriving DecidableEq, Repr

/-- A single: read from the wire, or a double narrowed. -/
inductive Single where
  | bits (b : UInt32)
  | ofDouble (d : Double)
  deriving DecidableEq, Repr

namespace Double

/-- `1.0`. -/
def one : Double := .bits 0x3FF0000000000000

/-- `(0.0..=1.0).contains`: positive doubles are ordered as their bits are, and
`-0.0` equals `0.0`. -/
def inUnit : Double → Bool
  | bits b => b ≤ 0x3FF0000000000000 || b == 0x8000000000000000
  | ofSingle b => b ≤ 0x3F800000 || b == 0x80000000
  | ofNanos n => n ≤ 1000000000

/-- `> 0.0`, which a NaN is not. -/
def isPositive : Double → Bool
  | bits b => 0 < b && b ≤ 0x7FF0000000000000
  | ofSingle b => 0 < b && b ≤ 0x7F800000
  | ofNanos n => 0 < n

/-- `(self - 1.0).abs() < f64::EPSILON`: `1.0`, or the double just below it. -/
def isOne : Double → Bool
  | bits b => b == 0x3FF0000000000000 || b == 0x3FEFFFFFFFFFFFFF
  | ofSingle b => b == 0x3F800000
  | ofNanos n => n == 1000000000

def roundHalfEven (n d : ℕ) : ℕ :=
  if 2 * (n % d) < d ∨ (2 * (n % d) = d ∧ n / d % 2 = 0) then n / d else n / d + 1

/-- The nanoseconds in a number of seconds given by its IEEE 754 bits, or `none`
when that is no duration: negative, not finite, or too long. -/
def ieeeNanos (exponentBits mantissaBits b : ℕ) : Option ℕ :=
  let mantissa := b % 2 ^ mantissaBits
  let exponent := b / 2 ^ mantissaBits % 2 ^ exponentBits
  let negative := b / 2 ^ (mantissaBits + exponentBits) % 2 = 1
  let significand := if exponent = 0 then mantissa else 2 ^ mantissaBits + mantissa
  -- the value is `significand * 2 ^ (scale - offset)`
  let scale := max exponent 1
  let offset := 2 ^ (exponentBits - 1) - 1 + mantissaBits
  let nanos :=
    if offset ≤ scale then significand * 1000000000 * 2 ^ (scale - offset)
    else roundHalfEven (significand * 1000000000) (2 ^ (offset - scale))
  if exponent = 2 ^ exponentBits - 1 then none
  else if negative ∧ significand ≠ 0 then none
  else if 2 ^ 64 ≤ nanos / 1000000000 then none
  else some nanos

/-- `Duration::try_from_secs_f64`. -/
def toDuration? : Double → Option ℕ
  | bits b => ieeeNanos 11 52 b.toNat
  | ofSingle b => ieeeNanos 8 23 b.toNat
  | ofNanos n => some n

end Double

/-! ## Refusals -/

inductive ErrorKind where
  | invalidOpcode
  | resourceNotFound
  | seekOutOfRange
  | volumeOutOfRange
  | rateOutOfRange
  | unsupportedFormat
  | malformedBody
  | invalidState
  | queuePositionOutOfRange
  | queueRemovePlayingItem
  | queueFull
  | invalidPayloadType
  | internal
  deriving DecidableEq, Repr

/-- What the player will not do: the message a v1-v3 sender is shown and the
kind a v4 sender gets. -/
structure Refusal where
  message : String
  kind : ErrorKind
  deriving DecidableEq, Repr

/-- An operation that gives no result: it is refused, or it indexes past the end
of the queue. -/
inductive Fault where
  | refused (refusal : Refusal)
  | panic
  deriving DecidableEq, Repr

/-! ## Media -/

abbrev Headers := List (String × String)

/-- The map that pairs collect into: of two values for a name the later stays.
-/
def Headers.collect (headers : Headers) : Headers :=
  headers.foldl (fun map entry => entry :: map.filter fun kept => kept.1 != entry.1) []

structure MediaMetadata where
  title : Option String
  thumbnailUrl : Option String
  /-- Sender-defined extra data, as its JSON text. -/
  custom : Option String
  deriving DecidableEq, Repr

/-- A `play`, and the shape in which v1-v3 senders are shown an item. -/
structure PlayMessage where
  container : String
  url : Option String
  content : Option String
  time : Option Double
  volume : Option Double
  speed : Option Double
  headers : Option Headers
  metadata : Option MediaMetadata
  deriving DecidableEq, Repr

/-- One entry of a v3 playlist. -/
structure MediaItem where
  container : String
  url : Option String
  content : Option String
  time : Option Double
  volume : Option Double
  speed : Option Double
  headers : Option Headers
  metadata : Option MediaMetadata
  deriving DecidableEq, Repr

/-- What a `play` with container `application/json` carries. -/
structure PlaylistContent where
  contentType : ℕ
  items : List MediaItem
  offset : Option ℕ
  deriving DecidableEq, Repr

/-- What the model takes from third parties. -/
structure Libraries where
  /-- `url::Url::parse`: the scheme and the URL as it is written back. -/
  urlParse : String → Except String (String × String)
  /-- `serde_json::from_str` for a playlist. -/
  playlistJson : String → Except String PlaylistContent

variable (lib : Libraries)

/-- `PlaylistContent::from_json`, the error as it is displayed. -/
def PlaylistContent.fromJson (content : String) : Except String PlaylistContent :=
  match lib.playlistJson content with
  | .error e => .error ("malformed Play body: playlist content: " ++ e)
  | .ok playlist =>
    if playlist.contentType ≠ 0 then
      .error ("malformed Play body: unknown contentType " ++ toString playlist.contentType)
    else .ok playlist

/-- One media item of version 4, as far as the player reads it. -/
structure V4MediaItem where
  container : String
  sourceUrl : String
  startTime : Option ℕ
  volume : Option UInt32
  speed : Option UInt32
  headers : Headers
  title : Option String
  thumbnailUrl : Option String
  deriving DecidableEq, Repr

inductive QueuePosition where
  | index (i : UInt8)
  | front
  | back
  deriving DecidableEq, Repr

/-- What a version 4 `Load` carries.  Queue items have an on-screen duration. -/
inductive LoadSource where
  | single (item : V4MediaItem)
  | queue (items : List (V4MediaItem × Option ℕ)) (startIndex : Option UInt8) (autoplay : Bool)
  deriving DecidableEq, Repr

/-! ## The fetch -/

/-- The URIs the pipeline opens. -/
structure MediaUri where
  text : String
  deriving DecidableEq, Repr

def MediaUri.schemes : List String := ["http", "https", "rtsp", "rtp", "udp", "file", "data"]

/-- Parse and validate a media URI.  The error is as it is displayed. -/
def MediaUri.parse (s : String) : Except String MediaUri :=
  match lib.urlParse s with
  | .error e => .error ("invalid media uri: " ++ e)
  | .ok (scheme, text) =>
    if scheme ∈ MediaUri.schemes then .ok ⟨text⟩
    else .error ("invalid media uri: unsupported scheme: " ++ scheme)

structure RequestHeader where
  name : String
  value : String
  deriving DecidableEq, Repr

namespace RequestHeader

def isTchar (c : Char) : Bool :=
  c.isAlphanum || "!#$%&'*+-.^_`|~".toList.contains c

/-- A character of a field value: visible, a space or a tab, or beyond ASCII. -/
def isFieldVchar (c : Char) : Bool :=
  c == '\t' || c == ' ' || (0x21 ≤ c.toNat && c.toNat ≤ 0x7e) || 0x80 ≤ c.toNat

def isPadding (c : Char) : Bool := c == ' ' || c == '\t'

/-- A value without the spaces and tabs around it. -/
def trimmed (value : String) : String :=
  String.ofList (((value.toList.dropWhile isPadding).reverse.dropWhile isPadding).reverse)

/-- Parse one header from what a sender sent.  The error is as it is displayed.
-/
def new (name value : String) : Except String RequestHeader :=
  if name.isEmpty || !name.toList.all isTchar then
    .error ("invalid request header: " ++ name.quote ++ " is not a header name")
  else
    let value := trimmed value
    if !value.toList.all isFieldVchar then
      .error ("invalid request header: the value of " ++ name ++ " holds a control character")
    else .ok ⟨name, value⟩

end RequestHeader

/-- A media fetch: what to open, and what to say while opening it. -/
structure MediaRequest where
  uri : MediaUri
  headers : List RequestHeader
  deriving DecidableEq, Repr

/-- What the pipeline is told is playing. -/
structure NowPlaying where
  title : Option String
  duration : Option ℕ
  deriving DecidableEq, Repr

/-- The remote controls there are: that of FCast, and those of other sources. -/
inductive Remote where
  | fCast
  | other (id : ℕ)
  deriving DecidableEq, Repr

/-- The event payloads.  Of a queue item the title is all there is, and of a
volume the position of the slider. -/
def payloads : Core.Payloads where
  MediaRequest := MediaRequest
  MediaUri := MediaUri
  FrameSource := ℕ
  AudioFormat := ℕ
  Bytes := Bytes
  DeclaredLatency := ℕ
  NowPlaying := NowPlaying
  QueueItem := String
  Volume := Single
  RemoteControl := Remote
  TouchSurface := ℕ

abbrev SessionEvent := Core.SessionEvent payloads

/-! ## Updates -/

/-- The playback state table shared by every protocol version. -/
inductive PlayState where
  | idle
  | playing
  | paused
  deriving DecidableEq, Repr

inductive MediaItemEventKind where
  | start
  | «end»
  | change
  deriving DecidableEq, Repr

/-- Where the pipeline is in an item. -/
structure PlaybackProgress where
  position : ℕ
  duration : Option ℕ
  deriving DecidableEq, Repr

/-- A version-neutral playback snapshot. -/
structure PlaybackSnapshot where
  state : PlayState
  time : Option Double
  duration : Option Double
  speed : Double
  itemIndex : Option ℕ
  deriving DecidableEq, Repr

/-! ### Packets to relay

A version 4 `Load` or `QueueInsert` is kept as it came, to be relayed.  A table
is a structure, and what nothing here looks into is its bytes. -/

structure FlatMediaItem where
  container : String
  sourceUrl : String
  startTime : Option UInt64
  volume : Option UInt32
  speed : Option UInt32
  headers : Option Headers
  title : Option String
  thumbnailUrl : Option String
  metadata : Option Bytes
  extraMetadata : Option Bytes
  deriving DecidableEq, Repr

structure FlatQueueItem where
  mediaItem : FlatMediaItem
  playbackDuration : Option UInt64
  deriving DecidableEq, Repr

inductive FlatSource where
  | single (item : FlatMediaItem)
  | queue (items : List FlatQueueItem) (startIndex : Option UInt8) (autoplay : Bool)
  deriving DecidableEq, Repr

inductive RawPacket where
  | load (source : FlatSource)
  | queueInsert (item : FlatQueueItem) (position : QueuePosition)
  deriving DecidableEq, Repr

/-- A state change that senders may need to hear about. -/
inductive ReceiverUpdate where
  | playback (snapshot : PlaybackSnapshot)
  | volume (volume : Double)
  | error (message : String) (kind : ErrorKind)
  | playChanged (play : Option PlayMessage)
  | mediaItem (kind : MediaItemEventKind) (item : PlayMessage)
  | v4Load (raw : RawPacket)
  | queueInsertRelay (raw : RawPacket)
  | queueRemoveRelay (position : QueuePosition)
  | queueSelectRelay (position : QueuePosition) (initiatedByReceiver : Bool)
  | speedActual (speed : Double)
  | progress (position : ℕ) (duration : Option ℕ)
  deriving DecidableEq, Repr

end Castaway.FCast
