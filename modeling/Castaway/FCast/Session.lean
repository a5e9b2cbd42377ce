import Castaway.FCast.Companion
import Castaway.FCast.Player

/-!
# The session of one connection

A connection speaks one of two dialects.  A JSON session (versions 1 to 3)
starts with a `Version`, or with a verb if the sender is of version 1, and drops
the connection over anything it does not allow.  A version 4 session answers
what it does not allow.  Each turns a frame into replies and at most one
command, and an update into a frame of its dialect.

Frames are kept as what they say.  `none` is a body that does not parse, which
the JSON and FlatBuffers libraries decide.
-/

namespace Castaway.FCast

/-! ## Frames out -/

structure ReceiverIdentity where
  displayName : String
  appName : String
  appVersion : String
  deriving DecidableEq, Repr

/-- A frame for a version 1 to 3 sender. -/
inductive JsonFrame where
  | ping
  | pong
  | initial (receiver : ReceiverIdentity) (playData : Option PlayMessage)
  | playbackUpdateV1 (time : Double) (state : PlayState)
  | playbackUpdateV2 (generationTime : ℕ) (time duration : Double) (state : PlayState)
      (speed : Double)
  | playbackUpdateV3 (generationTime : ℕ) (state : PlayState) (time duration : Option Double)
      (speed : Option Double) (itemIndex : Option ℕ)
  | volumeUpdateV1 (volume : Double)
  | volumeUpdateV2 (generationTime : ℕ) (volume : Double)
  | playbackError (message : String)
  | playUpdate (generationTime : ℕ) (playData : Option PlayMessage)
  | mediaItemEvent (generationTime : ℕ) (kind : MediaItemEventKind) (item : PlayMessage)
  deriving DecidableEq, Repr

/-- The playback states of version 4. -/
inductive PlaybackState where
  | idle
  | buffering
  | playing
  | paused
  | ended
  deriving DecidableEq, Repr

/-- A frame for a version 4 sender. -/
inductive V4Frame where
  | ping
  | pong
  | error (kind : ErrorKind) (packetNum : Option UInt32)
  | volumeChanged (volume : Single)
  | speedChanged (speed : Single)
  | playbackStateChanged (state : PlaybackState)
  | progressChanged (position : UInt64) (duration : Option UInt64)
  | stopPlayback
  | companionHelloResponse (providerId : UInt16)
  | companionResourceInfoRequest (requestId resourceId : UInt32)
  | companionResourceRequest (requestId resourceId : UInt32) (start stopInclusive : UInt64)
  | mirroringSessionDescription (sessionId : UInt16) (sdp : String)
  | queueItemSelected (position : QueuePosition)
  | queueRemove (position : QueuePosition)
  | receiverIntroduction (receiver : ReceiverIdentity) (mirroring : Bool)
  | load (source : FlatSource)
  | queueInsert (item : FlatQueueItem) (position : QueuePosition)
  deriving DecidableEq, Repr

inductive Frame where
  | json (frame : JsonFrame)
  | v4 (frame : V4Frame)
  deriving DecidableEq, Repr

/-! ### Relays -/

def FlatMediaItem.strip (item : FlatMediaItem) : FlatMediaItem :=
  { item with headers := none, metadata := none }

def FlatQueueItem.strip (item : FlatQueueItem) : FlatQueueItem :=
  { item with mediaItem := item.mediaItem.strip }

def FlatSource.strip : FlatSource → FlatSource
  | .single item => .single item.strip
  | .queue items startIndex autoplay =>
    .queue (items.map FlatQueueItem.strip) startIndex autoplay

/-- A `Load` or a `QueueInsert` to relay.  It parsed when it came in, so it does
again. -/
def strippedRelayFrame : RawPacket → V4Frame
  | .load source => .load source.strip
  | .queueInsert item position => .queueInsert item.strip position

/-! ## Faults -/

/-- Why a connection is dropped. -/
inductive SessionFault where
  | malformedBody
  | missingBody
  | illegalOpcode (version : ℕ)
  | illegalVersion
  | unexpectedVersion
  | malformedFlatbuf
  | malformedResource
  | heartbeatTimeout
  deriving DecidableEq, Repr

def parseBody {α : Type} : Option α → Except SessionFault α
  | some body => .ok body
  | none => .error .malformedBody

def pingAfter : ℕ := 3000000000

/-- Idle time after which an unanswered probe means that the connection is dead.
-/
def deadAfter : ℕ := 6000000000

/-- The heartbeat: whether to probe, or that the connection is dead. -/
def heartbeat (now lastRx : ℕ) (pingOutstanding : Bool) : Except SessionFault Bool :=
  let idle := now - lastRx
  if pingOutstanding then
    if deadAfter ≤ idle then .error .heartbeatTimeout else .ok false
  else .ok (pingAfter ≤ idle)

/-! ## Versions 1 to 3 -/

inductive SessionVersion where
  | v1
  | v2
  | v3
  deriving DecidableEq, Repr

def SessionVersion.number : SessionVersion → ℕ
  | .v1 => 1
  | .v2 => 2
  | .v3 => 3

/-- The events a version 3 sender can subscribe to.  Keys never fire. -/
inductive EventSubscription where
  | mediaItemStart
  | mediaItemEnd
  | mediaItemChange
  | keyDown (keys : List String)
  | keyUp (keys : List String)
  deriving DecidableEq, Repr

structure EventSubscriptions where
  mediaStart : Bool
  mediaEnd : Bool
  mediaChange : Bool
  deriving DecidableEq, Repr

namespace EventSubscriptions

def none : EventSubscriptions := ⟨false, false, false⟩

def set (subscriptions : EventSubscriptions) (on : Bool) : EventSubscription → EventSubscriptions
  | .mediaItemStart => { subscriptions with mediaStart := on }
  | .mediaItemEnd => { subscriptions with mediaEnd := on }
  | .mediaItemChange => { subscriptions with mediaChange := on }
  | .keyDown _ | .keyUp _ => subscriptions

def wants (subscriptions : EventSubscriptions) : MediaItemEventKind → Bool
  | .start => subscriptions.mediaStart
  | .end => subscriptions.mediaEnd
  | .change => subscriptions.mediaChange

end EventSubscriptions

/-- What a sender says about itself. -/
structure DeviceInfo where
  displayName : Option String
  appName : Option String
  appVersion : Option String
  deriving DecidableEq, Repr

/-- A frame from a version 1 to 3 sender. -/
inductive JsonInbound where
  | none
  | play (body : Option PlayMessage)
  | pause
  | resume
  | stop
  | playbackUpdate
  | volumeUpdate
  | seek (time : Option Double)
  | setVolume (volume : Option Double)
  | playbackError
  | setSpeed (speed : Option Double)
  | version (version : Option ℕ)
  | ping
  | pong
  | setPlaylistItem (itemIndex : Option ℕ)
  | initial (info : Option DeviceInfo)
  | playUpdate
  | subscribeEvent (event : Option EventSubscription)
  | unsubscribeEvent (event : Option EventSubscription)
  | event
  | flatbuf
  | resource
  deriving DecidableEq, Repr

/-- What a version 1 to 3 sender asked the receiver to do. -/
inductive SenderCommand where
  | load (play : PlayMessage)
  | pause
  | resume
  | stop
  | seek (target : ℕ)
  | setVolume (volume : Double)
  | setSpeed (speed : Double)
  | setPlaylistItem (index : ℕ)
  deriving DecidableEq, Repr

/-- Frames to write back, and a command for the player. -/
structure Reaction (Reply Command : Type) where
  replies : List Reply
  command : Option Command

namespace Reaction

variable {Reply Command : Type}

def nothing : Reaction Reply Command := ⟨[], none⟩

def command? (command : Command) : Reaction Reply Command := ⟨[], some command⟩

def reply (frame : Reply) : Reaction Reply Command := ⟨[frame], none⟩

end Reaction

/-- What a session needs to answer a handshake. -/
structure SessionContext where
  wallMs : ℕ
  receiver : ReceiverIdentity
  playData : Option PlayMessage
  volume : Double

/-- `volume.clamp(0.0, 1.0)`; a NaN stays one. -/
def Double.clampUnit : Double → Double
  | .bits b =>
    if Double.inUnit (.bits b) then .bits b
    else if 0x8000000000000000 < b ∧ b ≤ 0xFFF0000000000000 then .bits 0
    else if 0x7FF0000000000000 < b then .bits b
    else .one
  | other => if other.inUnit then other else .one

/-- One connection of a version 1 to 3 sender; it awaits a `Version` while it
has no version. -/
structure Session where
  version : Option SessionVersion
  lastRx : ℕ
  pingOutstanding : Bool
  subscriptions : EventSubscriptions
  peer : Option DeviceInfo
  deriving DecidableEq, Repr

namespace Session

def new : Session := ⟨none, 0, false, .none, none⟩

abbrev Returns := Except SessionFault (Session × Reaction JsonFrame SenderCommand)

def negotiate (session : Session) (ctx : SessionContext) (version : Option ℕ) : Returns := do
  match ← parseBody version with
  | 0 => .error .illegalVersion
  | 1 => pure ({ session with version := some .v1 }, .reply (.volumeUpdateV1 ctx.volume))
  | 2 =>
    pure ({ session with version := some .v2 },
      .reply (.volumeUpdateV2 ctx.wallMs ctx.volume))
  | _ =>
    -- A newer peer downgrades to what we advertised.
    pure ({ session with version := some .v3 }, .reply (.initial ctx.receiver ctx.playData))

/-- The frame is for versions from `least` on. -/
def since (version least : SessionVersion) (returns : Returns) : Returns :=
  if least.number ≤ version.number then returns else .error (.illegalOpcode version.number)

def dispatch (session : Session) (version : SessionVersion) : JsonInbound → Returns
  | .none => .ok (session, .nothing)
  | .play body => do pure (session, .command? (.load (← parseBody body)))
  | .pause => .ok (session, .command? .pause)
  | .resume => .ok (session, .command? .resume)
  | .stop => .ok (session, .command? .stop)
  | .seek time => do
      match (← parseBody time).toDuration? with
      | none => .error .malformedBody
      | some target => pure (session, .command? (.seek target))
  | .setVolume volume => do
      pure (session, .command? (.setVolume (← parseBody volume).clampUnit))
  | .playbackUpdate | .volumeUpdate | .playbackError | .playUpdate | .event =>
    .ok (session, .nothing)
  | .ping => since version .v2 (.ok (session, .reply .pong))
  | .pong => since version .v2 (.ok (session, .nothing))
  | .setSpeed speed => since version .v2 do
      pure (session, .command? (.setSpeed (← parseBody speed)))
  | .version _ => .error .unexpectedVersion
  | .initial info => since version .v3 do
      pure ({ session with peer := some (← parseBody info) }, .nothing)
  | .setPlaylistItem itemIndex => since version .v3 do
      pure (session, .command? (.setPlaylistItem (← parseBody itemIndex)))
  | .subscribeEvent event => since version .v3 do
      let subscriptions := session.subscriptions.set true (← parseBody event)
      pure ({ session with subscriptions }, .nothing)
  | .unsubscribeEvent event => since version .v3 do
      let subscriptions := session.subscriptions.set false (← parseBody event)
      pure ({ session with subscriptions }, .nothing)
  | .flatbuf | .resource => .error (.illegalOpcode version.number)

/-- Whether a version 1 sender may open with this frame. -/
def opensV1 : JsonInbound → Bool
  | .none | .play _ | .pause | .resume | .stop | .seek _ | .setVolume _ => true
  | _ => false

def onFrame (session : Session) (now : ℕ) (ctx : SessionContext) (frame : JsonInbound) : Returns :=
  let session := { session with lastRx := now, pingOutstanding := false }
  match session.version with
  | some version => session.dispatch version frame
  | none =>
    match frame with
    | .version version => session.negotiate ctx version
    | other =>
      if opensV1 other then
        ({ session with version := some .v1 } : Session).dispatch .v1 other
      else .error (.illegalOpcode 1)

/-- Heartbeat tick.  Version 1 has none. -/
def onTick (session : Session) (now : ℕ) : Except SessionFault (Session × Option JsonFrame) :=
  match session.version with
  | none | some .v1 => .ok (session, none)
  | some _ =>
    match heartbeat now session.lastRx session.pingOutstanding with
    | .error fault => .error fault
    | .ok false => .ok (session, none)
    | .ok true => .ok ({ session with pingOutstanding := true }, some .ping)

/-- `0.0`. -/
def zero : Double := .bits 0

/-- An update as a session of this version is told it, or `none` when it is not.
-/
def frameUpdate (session : Session) (wallMs : ℕ) (update : ReceiverUpdate) : Option JsonFrame :=
  match session.version with
  | none => none
  | some version =>
    match update with
    | .playback snapshot => some <|
        match version with
        | .v1 => .playbackUpdateV1 (snapshot.time.getD zero) snapshot.state
        | .v2 =>
          .playbackUpdateV2 wallMs (snapshot.time.getD zero) (snapshot.duration.getD zero)
            snapshot.state snapshot.speed
        | .v3 =>
          .playbackUpdateV3 wallMs snapshot.state snapshot.time snapshot.duration
            (some snapshot.speed) snapshot.itemIndex
    | .volume volume => some <|
        match version with
        | .v1 => .volumeUpdateV1 volume
        | .v2 | .v3 => .volumeUpdateV2 wallMs volume
    | .error message _ =>
      match version with
      | .v1 => none
      | .v2 | .v3 => some (.playbackError message)
    | .playChanged play =>
      match version with
      | .v1 | .v2 => none
      | .v3 => some (.playUpdate wallMs play)
    | .mediaItem kind item =>
      if version = .v3 ∧ session.subscriptions.wants kind then
        some (.mediaItemEvent wallMs kind item)
      else none
    | .v4Load _ | .queueInsertRelay _ | .queueRemoveRelay _ | .queueSelectRelay _ _
    | .speedActual _ | .progress _ _ => none

end Session

end Castaway.FCast
