import Castaway.FCast.SessionV4
import Castaway.Lib.Json

/-!
# How large frames are

The bodies of the frames we send, and the packet ceiling that `encode` holds
them to.  JSON bodies are written out; a FlatBuffers body and the text of a
double are the libraries', as `Codecs`.

What is shown of an item is part of three frames, and `length_playUpdate`,
`length_mediaItemEvent` and `length_initial` say what each adds to it.
-/

namespace Castaway.FCast

open Castaway.Json (object given sorted natural)
open List

/-- What the model takes from the libraries that write frames. -/
structure Codecs where
  /-- A double, or `null` if it is not finite. -/
  number : Double → Bytes
  /-- The body of a version 4 frame that has one. -/
  flatbuf : V4Frame → Bytes

variable (codecs : Codecs)

/-! ## Bodies -/

def MediaMetadata.text (metadata : MediaMetadata) : Bytes :=
  object (sorted ([("type", natural 0)] ++ given "title" (metadata.title.map Json.string) ++
    given "thumbnailUrl" (metadata.thumbnailUrl.map Json.string) ++
    given "custom" (metadata.custom.map utf8)))

/-- The members of an item; `order` is how the map of its headers is gone
through. -/
def PlayMessage.members (order : List Json.Member → List Json.Member) (play : PlayMessage) :
    List Json.Member :=
  [("container", Json.string play.container)] ++ given "url" (play.url.map Json.string) ++
    given "content" (play.content.map Json.string) ++
    given "time" (play.time.map codecs.number) ++
    given "volume" (play.volume.map codecs.number) ++
    given "speed" (play.speed.map codecs.number) ++
    given "headers" (play.headers.map fun headers =>
      object (order (headers.map fun header => (header.1, Json.string header.2)))) ++
    given "metadata" (play.metadata.map MediaMetadata.text)

def PlayMessage.text (play : PlayMessage) : Bytes := object (play.members codecs id)

/-- An item, written from a JSON value, whose maps are sorted. -/
def PlayMessage.value (play : PlayMessage) : Bytes :=
  object (sorted (play.members codecs sorted))

def PlayState.toWire : PlayState → ℕ
  | .idle => 0
  | .playing => 1
  | .paused => 2

def MediaItemEventKind.toWire : MediaItemEventKind → ℕ
  | .start => 0
  | .end => 1
  | .change => 2

def JsonFrame.body : JsonFrame → Bytes
  | .ping | .pong => []
  | .initial receiver playData =>
    object ([("displayName", Json.string receiver.displayName),
      ("appName", Json.string receiver.appName),
      ("appVersion", Json.string receiver.appVersion)] ++
      given "playData" (playData.map (PlayMessage.text codecs)))
  | .playbackUpdateV1 time state =>
    object [("time", codecs.number time), ("state", natural state.toWire)]
  | .playbackUpdateV2 generationTime time duration state speed =>
    object [("generationTime", natural generationTime), ("time", codecs.number time),
      ("duration", codecs.number duration), ("state", natural state.toWire),
      ("speed", codecs.number speed)]
  | .playbackUpdateV3 generationTime state time duration speed itemIndex =>
    object ([("generationTime", natural generationTime), ("state", natural state.toWire)] ++
      given "time" (time.map codecs.number) ++
      given "duration" (duration.map codecs.number) ++
      given "speed" (speed.map codecs.number) ++
      given "itemIndex" (itemIndex.map natural))
  | .volumeUpdateV1 volume => object [("volume", codecs.number volume)]
  | .volumeUpdateV2 generationTime volume =>
    object [("generationTime", natural generationTime), ("volume", codecs.number volume)]
  | .playbackError message => object [("message", Json.string message)]
  | .playUpdate generationTime playData =>
    object [("generationTime", natural generationTime),
      ("playData", (playData.map (PlayMessage.text codecs)).getD (utf8 "null"))]
  | .mediaItemEvent generationTime kind item =>
    object (sorted [("generationTime", natural generationTime),
      ("event", object (sorted [("type", natural kind.toWire), ("item", item.value codecs)]))])

/-! ## The ceiling -/

/-- Largest opcode and body that we take from versions 1 to 3, and send to
anyone. -/
def maxPacket : ℕ := 32000

def JsonFrame.opcode : JsonFrame → UInt8
  | .playbackUpdateV1 .. | .playbackUpdateV2 .. | .playbackUpdateV3 .. => 6
  | .volumeUpdateV1 .. | .volumeUpdateV2 .. => 7
  | .playbackError _ => 9
  | .ping => 12
  | .pong => 13
  | .initial .. => 14
  | .playUpdate .. => 15
  | .mediaItemEvent .. => 19

namespace Frame

def opcode : Frame → UInt8
  | .json frame => frame.opcode
  | .v4 .ping => 12
  | .v4 .pong => 13
  | .v4 _ => 20

def body : Frame → Bytes
  | .json frame => frame.body codecs
  | .v4 .ping => []
  | .v4 .pong => []
  | .v4 frame => codecs.flatbuf frame

/-- Encode a frame with its size in front, or say how much too large it is. -/
def encode (frame : Frame) : Except ℕ Bytes :=
  let size := 1 + (frame.body codecs).length
  if maxPacket < size then .error size
  else .ok (leBytes 4 size ++ frame.opcode :: frame.body codecs)

/-- Whether `encode` takes a frame. -/
def encodes (frame : Frame) : Bool := (frame.encode codecs).isOk

variable {codecs}

theorem encodes_iff {frame : Frame} :
    frame.encodes codecs ↔ (frame.body codecs).length < maxPacket := by
  rw [encodes, encode]
  by_cases hlarge : maxPacket < 1 + (frame.body codecs).length
  · rw [if_pos hlarge]
    exact iff_of_false Bool.false_ne_true (by omega)
  · rw [if_neg hlarge]
    exact iff_of_true rfl (by omega)

end Frame

/-! ## What is shown of an item -/

variable {codecs}

theorem PlayMessage.length_value (play : PlayMessage) :
    (play.value codecs).length = (play.text codecs).length := by
  have hheaders (headers : Headers) :
      (object (sorted (headers.map fun header => (header.1, Json.string header.2)))).length =
        (object (headers.map fun header => (header.1, Json.string header.2))).length :=
    Json.length_object_sorted _
  have hmembers : (play.members codecs sorted).map Json.memberLength =
      (play.members codecs id).map Json.memberLength := by
    unfold members
    cases play.headers with
    | none => rfl
    | some headers => simp [given, Json.memberLength, hheaders]
  rw [value, text, Json.length_object_sorted, Json.length_object (by simp [members]),
    Json.length_object (by simp [members]), hmembers]

theorem length_playUpdate (generationTime : ℕ) (play : PlayMessage) :
    ((JsonFrame.playUpdate generationTime (some play)).body codecs).length =
      31 + (natural generationTime).length + (play.text codecs).length := by
  have htime : (Json.string "generationTime").length = 16 := by decide
  have hplay : (Json.string "playData").length = 10 := by decide
  rw [JsonFrame.body, Json.length_object (by simp)]
  simp only [map_cons, map_nil, sum_cons, sum_nil, Json.memberLength,
    Option.map_some, Option.getD_some, htime, hplay]
  omega

theorem length_mediaItemEvent (generationTime : ℕ) (kind : MediaItemEventKind)
    (item : PlayMessage) :
    ((JsonFrame.mediaItemEvent generationTime kind item).body codecs).length =
      46 + (natural generationTime).length + (item.text codecs).length := by
  have htime : (Json.string "generationTime").length = 16 := by decide
  have hevent : (Json.string "event").length = 7 := by decide
  have htype : (Json.string "type").length = 6 := by decide
  have hitem : (Json.string "item").length = 6 := by decide
  have hkind : (natural kind.toWire).length = 1 := by cases kind <;> rfl
  rw [JsonFrame.body, Json.length_object_sorted, Json.length_object (by simp)]
  simp only [map_cons, map_nil, sum_cons, sum_nil, Json.memberLength, htime,
    hevent]
  rw [Json.length_object_sorted, Json.length_object (by simp)]
  simp only [map_cons, map_nil, sum_cons, sum_nil, Json.memberLength, htype,
    hitem, hkind, item.length_value]
  omega

theorem length_initial (receiver : ReceiverIdentity) (play : PlayMessage) :
    ((JsonFrame.initial receiver (some play)).body codecs).length =
      ((JsonFrame.initial receiver none).body codecs).length + 12 +
        (play.text codecs).length := by
  have hplay : (Json.string "playData").length = 10 := by decide
  rw [JsonFrame.body, JsonFrame.body, Json.length_object (by simp), Json.length_object (by simp)]
  simp only [Option.map_some, Option.map_none, given, Option.toList_some, Option.toList_none,
    append_nil, map_append, sum_append, map_cons, map_nil, sum_cons,
    sum_nil, Json.memberLength, hplay]
  omega

end Castaway.FCast
