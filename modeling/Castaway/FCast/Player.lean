import Castaway.FCast.Messages

/-!
# The player

The receiver-side model shared by every FCast connection: what is loaded, the
queue and its index, the playback state and the volume.  An operation returns
the player and what it produced, events for the pipeline and updates for the
senders, or the fault it ended with; the player keeps what was done to it before
a fault.

The queue is indexed as the source indexes it, where an index out of range
panics.
-/

namespace Castaway.FCast

open Castaway.Core (ControlTxn PlaybackEnd FailureCause)

/-- What applying a command produced. -/
structure Applied where
  events : List SessionEvent
  updates : List ReceiverUpdate

def Applied.nothing : Applied := ⟨[], []⟩

/-- One resolved, playable entry. -/
structure ResolvedItem where
  request : MediaRequest
  start : Option ℕ
  /-- The item as senders are shown it. -/
  echo : PlayMessage
  title : Option String
  deriving DecidableEq, Repr

section Resolve

variable (lib : Libraries)

def parseHeader (what : String) (entry : String × String) : Except Refusal RequestHeader :=
  match RequestHeader.new entry.1 entry.2 with
  | .ok header => .ok header
  | .error e => .error ⟨what ++ ": " ++ e, .malformedBody⟩

/-- Turn what a sender sent into headers we will put on a fetch, sorted by name.
-/
def requestHeaders (headers : Headers) (what : String) : Except Refusal (List RequestHeader) :=
  (headers.mapM (parseHeader what)).map (List.insertionSort fun a b => a.name ≤ b.name)

namespace ResolvedItem

def resolve (play : PlayMessage) (what : String) : Except Refusal ResolvedItem :=
  if play.url.isNone && play.content.isSome then
    .error ⟨what ++ ": inline content is not supported by this receiver; send a URL",
      .unsupportedFormat⟩
  else
    match play.url with
    | none => .error ⟨what ++ ": no URL to play", .malformedBody⟩
    | some url =>
      match MediaUri.parse lib url with
      | .error e => .error ⟨what ++ ": " ++ e, .unsupportedFormat⟩
      | .ok uri =>
        match requestHeaders (play.headers.getD []) what with
        | .error refusal => .error refusal
        | .ok headers => .ok {
            request := ⟨uri, headers⟩
            start := (play.time.filter Double.isPositive).bind Double.toDuration?
            echo := play
            title := play.metadata.bind MediaMetadata.title }

/-- The item as a v1-v3 sender is shown it. -/
def echoV4 (item : V4MediaItem) : PlayMessage where
  container := item.container
  url := some item.sourceUrl
  content := none
  time := item.startTime.map .ofNanos
  volume := item.volume.map .ofSingle
  speed := item.speed.map .ofSingle
  headers := if item.headers.isEmpty then none else some (Headers.collect item.headers)
  metadata := item.title.map fun title => ⟨some title, item.thumbnailUrl, none⟩

/-- Resolve one version 4 item. -/
def resolveV4 (item : V4MediaItem) (what : String) : Except Refusal ResolvedItem :=
  match MediaUri.parse lib item.sourceUrl with
  | .error e =>
    let kind := if "fcomp://".isPrefixOf item.sourceUrl then .resourceNotFound
      else .unsupportedFormat
    .error ⟨what ++ ": " ++ e, kind⟩
  | .ok uri =>
    match requestHeaders item.headers what with
    | .error refusal => .error refusal
    | .ok headers => .ok {
        request := ⟨uri, headers⟩
        start := item.startTime.filter (0 < ·)
        echo := echoV4 item
        title := item.title }

end ResolvedItem

def resolveAll {α : Type} (resolve : α → ℕ → Except Refusal ResolvedItem) (items : List α) :
    Except Refusal (List ResolvedItem) :=
  items.zipIdx.mapM fun (item, i) => resolve item i

end Resolve

def errorKind : FailureCause → ErrorKind
  | .unobtainable => .resourceNotFound
  | .unplayable => .unsupportedFormat
  | .receiver => .internal

structure Loaded where
  /-- The request, shown to v3 senders that join late. -/
  play : PlayMessage
  queue : List ResolvedItem
  index : ℕ
  /-- A single URL has no item index. -/
  isPlaylist : Bool
  /-- Whether finishing an item plays the next. -/
  autoplay : Bool
  /-- The version 4 `Load` of a single item, replayed to senders that join late.
  -/
  v4SingleRaw : Option RawPacket
  /-- Whether a version 4 sender may change the queue. -/
  v4Queue : Bool
  deriving DecidableEq, Repr

structure Player where
  loaded : Option Loaded
  state : PlayState
  volume : Double
  deriving DecidableEq, Repr

/-! ## Indexing -/

/-- `queue[index]`. -/
def itemAt (queue : List ResolvedItem) (index : ℕ) : Except Fault ResolvedItem :=
  match queue[index]? with
  | some item => .ok item
  | none => .error .panic

/-- `queue[start..]`. -/
def itemsFrom (queue : List ResolvedItem) (start : ℕ) : Except Fault (List ResolvedItem) :=
  if start ≤ queue.length then .ok (queue.drop start) else .error .panic

/-- `queue.insert(index, item)`. -/
def insertItem (queue : List ResolvedItem) (index : ℕ) (item : ResolvedItem) :
    Except Fault (List ResolvedItem) :=
  if index ≤ queue.length then .ok (queue.insertIdx index item) else .error .panic

/-- `queue.remove(index)`. -/
def removeItem (queue : List ResolvedItem) (index : ℕ) : Except Fault (List ResolvedItem) :=
  if index < queue.length then .ok (queue.eraseIdx index) else .error .panic

namespace Player

def new : Player := ⟨none, .idle, .one⟩

def playData (player : Player) : Option PlayMessage := player.loaded.map Loaded.play

def itemIndex (player : Player) : Option ℕ :=
  (player.loaded.filter Loaded.isPlaylist).map Loaded.index

def snapshot (player : Player) (progress : Option PlaybackProgress) : PlaybackSnapshot :=
  let progress := progress.filter fun _ => player.state != .idle
  { state := player.state
    time := progress.map fun p => .ofNanos p.position
    duration := (progress.bind PlaybackProgress.duration).map .ofNanos
    speed := .one
    itemIndex := player.itemIndex }

/-- The version 4 `Load` that is playing, when it was of a single item. -/
def v4SingleRaw (player : Player) : Option RawPacket :=
  player.loaded.bind Loaded.v4SingleRaw

def upNext (loaded : Loaded) : Except Fault (List String) :=
  (itemsFrom loaded.queue (loaded.index + 1)).map fun items =>
    items.map fun next => next.title.getD next.request.uri.text

/-- Events and updates for starting, or restarting, the current item. -/
def startCurrent (player : Player) : Except Fault Applied :=
  match player.loaded with
  | none => .ok .nothing
  | some loaded => do
      let item ← itemAt loaded.queue loaded.index
      let next ← upNext loaded
      pure {
        events := [.play item.request item.start, .nowPlaying ⟨item.title, none⟩] ++
          if next.isEmpty then [] else [.upNext next]
        updates := [.mediaItem (if loaded.isPlaylist then .change else .start) item.echo,
          .playback (player.snapshot none)] }

/-- `self.volume = volume` for a volume that is one. -/
def withVolume (player : Player) (volume : Option Double) : Player :=
  { player with volume := (volume.filter Double.inUnit).getD player.volume }

def volumeEvent (volume : Double) : SessionEvent := .control (.volume (.ofDouble volume))

/-- The last lines of both loads: `loaded` is current and starts.  `relayed` are
the updates in front. -/
def begin (player : Player) (loaded : Loaded) (relayed : List ReceiverUpdate) :
    Player × Except Fault Applied :=
  let player := { player with loaded := some loaded, state := .playing }
  match player.startCurrent with
  | .error fault => (player, .error fault)
  | .ok applied => (player, .ok {
      events := applied.events ++ [volumeEvent player.volume]
      updates := relayed ++ applied.updates ++ [.volume player.volume] })

section Load

variable (lib : Libraries)

/-- The queue of a `play`, where it starts, and whether it is a playlist. -/
def parseLoad (play : PlayMessage) : Except Refusal (List ResolvedItem × ℕ × Bool) :=
  if play.container = "application/json" then
    match play.content with
    | none => .error
        ⟨"playlist by URL is not supported by this receiver; send the playlist inline",
          .unsupportedFormat⟩
    | some content =>
      match PlaylistContent.fromJson lib content with
      | .error e => .error ⟨"playlist: " ++ e, .malformedBody⟩
      | .ok playlist =>
        if playlist.items.isEmpty then .error ⟨"playlist: no items", .malformedBody⟩
        else
          let resolve := fun (item : MediaItem) (i : ℕ) =>
            ResolvedItem.resolve lib
              ⟨item.container, item.url, item.content, item.time, item.volume, item.speed,
                item.headers, item.metadata⟩
              ("playlist item " ++ toString i)
          match resolveAll resolve playlist.items with
          | .error refusal => .error refusal
          | .ok items => .ok (items, min (playlist.offset.getD 0) (items.length - 1), true)
  else
    match ResolvedItem.resolve lib play "play request" with
    | .error refusal => .error refusal
    | .ok item => .ok ([item], 0, false)

/-- Load new content: a single URL, or a playlist. -/
def load (player : Player) (play : PlayMessage) : Player × Except Fault Applied :=
  match parseLoad lib play with
  | .error refusal => (player, .error (.refused refusal))
  | .ok (queue, index, isPlaylist) =>
    (player.withVolume play.volume).begin
      { play, queue, index, isPlaylist, autoplay := true, v4SingleRaw := none, v4Queue := false }
      [.playChanged (some play)]

/-- The load a version 4 `Load` asks for, but for what is shown of it. -/
def parseLoadV4 (source : LoadSource) (raw : RawPacket) :
    Except Refusal (List ResolvedItem × ℕ × Bool × Bool × Option RawPacket × Bool) :=
  match source with
  | .single item =>
    match ResolvedItem.resolveV4 lib item "play request" with
    | .error refusal => .error refusal
    | .ok resolved => .ok ([resolved], 0, false, true, some raw, false)
  | .queue items startIndex autoplay =>
    if items.isEmpty then .error ⟨"queue: no items", .malformedBody⟩
    else if 256 < items.length then
      .error ⟨"queue of " ++ toString items.length ++ " items exceeds the 256-item cap",
        .malformedBody⟩
    else
      let index := (startIndex.getD 0).toNat
      if items.length ≤ index then
        .error ⟨"start index " ++ toString index ++ " outside 0.." ++ toString items.length,
          .queuePositionOutOfRange⟩
      else
        let resolve := fun (item : V4MediaItem × Option ℕ) (i : ℕ) =>
          ResolvedItem.resolveV4 lib item.1 ("queue item " ++ toString i)
        match resolveAll resolve items with
        | .error refusal => .error refusal
        | .ok resolved => .ok (resolved, index, true, autoplay, none, true)

/-- Load version 4 content: a single item, or a queue of at most 256. -/
def loadV4 (player : Player) (source : LoadSource) (raw : RawPacket) :
    Player × Except Fault Applied :=
  match parseLoadV4 lib source raw with
  | .error refusal => (player, .error (.refused refusal))
  | .ok (queue, index, isPlaylist, autoplay, v4SingleRaw, v4Queue) =>
    match itemAt queue index with
    | .error fault => (player, .error fault)
    | .ok item =>
      (player.withVolume item.echo.volume).begin
        { play := item.echo, queue, index, isPlaylist, autoplay, v4SingleRaw, v4Queue }
        [.playChanged (some item.echo), .v4Load raw]

end Load

/-! ## The queue of a version 4 sender -/

/-- The index a position means in a queue of `len` items.  To insert at the back
is to append, and else the back is the last item. -/
def target (len : ℕ) (insert : Bool) : QueuePosition → ℕ
  | .index i => i.toNat
  | .front => 0
  | .back => if insert then len else len - 1

def positionIndex (loaded : Loaded) (position : QueuePosition) (insert : Bool) : Except Refusal ℕ :=
  let len := loaded.queue.length
  let index := target len insert position
  let limit := if insert then len else len - 1
  if limit < index then
    .error ⟨"position " ++ toString index ++ " outside the queue of " ++ toString len,
      .queuePositionOutOfRange⟩
  else .ok index

/-- The load, if version 4 senders may change its queue. -/
def v4QueueMut (player : Player) : Except Refusal Loaded :=
  match player.loaded.filter Loaded.v4Queue with
  | some loaded => .ok loaded
  | none => .error ⟨"no queue is loaded", .invalidState⟩

/-- The queue has been changed to that of `loaded`. -/
def edited (player : Player) (loaded : Loaded) (relay : ReceiverUpdate) :
    Player × Except Fault Applied :=
  let player := { player with loaded := some loaded }
  match upNext loaded with
  | .error fault => (player, .error fault)
  | .ok next => (player, .ok ⟨[.upNext next], [relay, .playback (player.snapshot none)]⟩)

def queueInsertV4 (lib : Libraries) (player : Player) (item : V4MediaItem)
    (position : QueuePosition) (raw : RawPacket) : Player × Except Fault Applied :=
  match ResolvedItem.resolveV4 lib item "inserted item" with
  | .error refusal => (player, .error (.refused refusal))
  | .ok resolved =>
    match player.v4QueueMut with
    | .error refusal => (player, .error (.refused refusal))
    | .ok loaded =>
      if 256 ≤ loaded.queue.length then
        (player, .error (.refused ⟨"the queue already holds 256 items", .queueFull⟩))
      else
        match positionIndex loaded position true with
        | .error refusal => (player, .error (.refused refusal))
        | .ok index =>
          let current := if index ≤ loaded.index then loaded.index + 1 else loaded.index
          match insertItem loaded.queue index resolved with
          | .error fault =>
            ({ player with loaded := some { loaded with index := current } },
              .error fault)
          | .ok queue =>
            player.edited { loaded with queue, index := current } (.queueInsertRelay raw)

/-- Remove a queue item.  The playing item cannot be removed. -/
def queueRemoveV4 (player : Player) (position : QueuePosition) : Player × Except Fault Applied :=
  match player.v4QueueMut with
  | .error refusal => (player, .error (.refused refusal))
  | .ok loaded =>
    match positionIndex loaded position false with
    | .error refusal => (player, .error (.refused refusal))
    | .ok index =>
      if index = loaded.index then
        (player, .error (.refused ⟨"cannot remove the playing item",
          .queueRemovePlayingItem⟩))
      else
        let current := if index < loaded.index then loaded.index - 1 else loaded.index
        match removeItem loaded.queue index with
        | .error fault =>
          ({ player with loaded := some { loaded with index := current } }, .error fault)
        | .ok queue =>
          player.edited { loaded with queue, index := current }
            (.queueRemoveRelay position)

/-- Make the item at `index` current and start it. -/
def jump (player : Player) (loaded : Loaded) (index : ℕ) : Player × Except Fault Applied :=
  let player := { player with loaded := some { loaded with index }, state := .playing }
  (player, player.startCurrent)

/-- Jump to a version 4 queue item. -/
def queueSelectV4 (player : Player) (position : QueuePosition) : Player × Except Fault Applied :=
  match player.v4QueueMut with
  | .error refusal => (player, .error (.refused refusal))
  | .ok loaded =>
    match positionIndex loaded position false with
    | .error refusal => (player, .error (.refused refusal))
    | .ok index =>
      match player.jump loaded index with
      | (player, .error fault) => (player, .error fault)
      | (player, .ok applied) =>
        (player, .ok { applied with
          updates := applied.updates ++ [.queueSelectRelay position false] })

/-! ## Transport -/

/-- Pause.  A no-op when nothing is playing. -/
def pause (player : Player) : Player × Applied :=
  if player.state ≠ .playing then (player, .nothing)
  else
    let player := { player with state := .paused }
    (player, ⟨[.control .pause], [.playback (player.snapshot none)]⟩)

/-- Resume.  A no-op unless paused. -/
def resume (player : Player) : Player × Applied :=
  if player.state ≠ .paused then (player, .nothing)
  else
    let player := { player with state := .playing }
    (player, ⟨[.control .play], [.playback (player.snapshot none)]⟩)

def stop (player : Player) : Player × Applied :=
  if player.loaded.isNone then (player, .nothing)
  else
    let player := { player with loaded := none, state := .idle }
    (player, ⟨[.control .stop], [.playChanged none, .playback (player.snapshot none)]⟩)

/-- Seek.  The transport state does not move. -/
def seek (player : Player) (target : ℕ) : Player × Applied :=
  if player.loaded.isNone then (player, .nothing)
  else
    (player, ⟨[.control (.seek target)],
      [.playback (player.snapshot (some ⟨target, none⟩)), .progress target none]⟩)

def setVolume (player : Player) (volume : Double) : Player × Applied :=
  ({ player with volume }, ⟨[volumeEvent volume], [.volume volume]⟩)

/-- The speed is `1.0`, and only a request for that is met.  `shown` is the
speed as it is displayed. -/
def setSpeed (player : Player) (speed : Double) (shown : String) : Player × Except Fault Applied :=
  if speed.isOne then (player, .ok .nothing)
  else
    (player, .error (.refused ⟨"playback speed " ++ shown ++
      " is not supported by this receiver (plays at 1.0)", .rateOutOfRange⟩))

def setPlaylistItem (player : Player) (index : ℕ) : Player × Except Fault Applied :=
  match player.loaded with
  | none => (player, .error (.refused ⟨"no playlist is loaded", .invalidState⟩))
  | some loaded =>
    if !loaded.isPlaylist then
      (player, .error (.refused ⟨"the loaded content is not a playlist", .invalidState⟩))
    else if loaded.queue.length ≤ index then
      (player, .error (.refused ⟨"playlist item " ++ toString index ++
        " is out of range (0.." ++ toString loaded.queue.length ++ ")",
        .queuePositionOutOfRange⟩))
    else player.jump loaded index

def step (player : Player) (forward : Bool) : Player × Except Fault Applied :=
  match player.loaded with
  | none => (player, .error (.refused ⟨"no playlist is loaded", .invalidState⟩))
  | some loaded =>
    if forward then player.setPlaylistItem (loaded.index + 1)
    else if loaded.index = 0 then
      (player, .error (.refused ⟨"already at the first playlist item", .internal⟩))
    else player.setPlaylistItem (loaded.index - 1)

/-- The pipeline has finished with the current item: advance, or go idle. -/
def mediaEnded (player : Player) (ending : PlaybackEnd) : Player × Except Fault Applied :=
  match player.loaded with
  | none => (player, .ok .nothing)
  | some loaded =>
    match itemAt loaded.queue loaded.index with
    | .error fault => (player, .error fault)
    | .ok ended =>
      let first : ReceiverUpdate := .mediaItem .end ended.echo
      let idle := { player with state := .idle }
      match ending with
      | .finished =>
        if loaded.autoplay && loaded.index + 1 < loaded.queue.length then
          match player.jump loaded (loaded.index + 1) with
          | (player, .error fault) => (player, .error fault)
          | (player, .ok applied) =>
            -- the receiver moved the pointer, so every sender hears it
            let announced := if loaded.v4Queue then
                [.queueSelectRelay (.index (.ofNat (loaded.index + 1))) true]
              else []
            (player, .ok ⟨applied.events, first :: applied.updates ++ announced⟩)
        else (idle, .ok ⟨[], [first, .playback (idle.snapshot none)]⟩)
      | .failed cause detail =>
        (idle, .ok ⟨[], [first, .error ("playback failed: " ++ detail) (errorKind cause),
          .playback (idle.snapshot none)]⟩)

end Player

end Castaway.FCast
