import Castaway.FCast.Session

/-!
# The version 4 session

What comes after the upgrade to version 4: packets are counted, an opcode or a
payload that a sender may not use is answered with a typed error, and only a
packet that cannot be read ends the session.
-/

namespace Castaway.FCast

/-! ## Packets in -/

/-- The payload of a verified packet; `none` for a position or a time is a union
or a field that is not there. -/
inductive Packet where
  | load (source : Option FlatSource)
  | progressChanged (position : Option UInt64)
  | volumeChanged (volume : UInt32)
  | playbackStateChanged (state : PlaybackState)
  | speedChanged (speed : UInt32)
  | senderIntroduction (info : DeviceInfo)
  | stopPlayback
  | startMirroringSession (sessionId : UInt16)
  | mirroringSessionDescription (sessionId : UInt16) (sdp : String)
  | queueInsert (item : FlatQueueItem) (position : Option QueuePosition)
  | queueRemove (position : Option QueuePosition)
  | queueItemSelected (position : Option QueuePosition)
  | changeTrack (id : Option UInt32)
  | addSubtitleSource (url : String)
  | setProgressUpdateInterval (interval : Option UInt64)
  | companionHelloRequest
  | companionResourceInfoResponse (requestId : UInt32) (contentType : String)
      (size : Option UInt64)
  | other
  deriving DecidableEq, Repr

/-- A frame from a version 4 sender. -/
inductive RawFrame where
  | ping
  | pong
  /-- `none` when the body does not verify, or lacks the member of a union. -/
  | flatbuf (body : Option Packet)
  | emptyFlatbuf
  | resource (part : Option ResourcePart)
  /-- An opcode of the JSON dialects, or of none. -/
  | other
  deriving DecidableEq, Repr

def microsToNanos (micros : UInt64) : ℕ := micros.toNat * 1000

/-- A duration as a time on the wire, cut off at 64 bits. -/
def toMicros (nanos : ℕ) : UInt64 := .ofNat (nanos / 1000)

def V4MediaItem.fromFlat (item : FlatMediaItem) : V4MediaItem where
  container := item.container
  sourceUrl := item.sourceUrl
  startTime := item.startTime.map microsToNanos
  volume := item.volume
  speed := item.speed
  headers := item.headers.getD []
  title := item.title
  thumbnailUrl := item.thumbnailUrl

def LoadSource.fromFlat : FlatSource → LoadSource
  | .single item => .single (.fromFlat item)
  | .queue items startIndex autoplay =>
    .queue (items.map fun item =>
      (.fromFlat item.mediaItem, item.playbackDuration.map microsToNanos)) startIndex autoplay

/-- A message that a sender may send. -/
inductive V4Inbound where
  | load (source : LoadSource) (raw : RawPacket)
  | progressChanged (position : ℕ)
  | volumeChanged (volume : UInt32)
  | playbackStateChanged (state : PlaybackState)
  | speedChanged (speed : UInt32)
  | senderIntroduction (info : DeviceInfo)
  | stopPlayback
  | startMirroringSession (sessionId : UInt16)
  | mirroringSessionDescription (sessionId : UInt16) (sdp : String)
  | queueInsert (item : V4MediaItem) (playbackDuration : Option ℕ) (position : QueuePosition)
      (raw : RawPacket)
  | queueRemove (position : QueuePosition)
  | queueItemSelected (position : QueuePosition)
  | changeTrack (id : Option UInt32)
  | addSubtitleSource
  | setProgressUpdateInterval (interval : ℕ)
  | companionHelloRequest
  | companionResourceInfoResponse (requestId : UInt32) (contentType : String)
      (size : Option UInt64)
  deriving DecidableEq, Repr

/-- A progress interval to the nearest 100 ms step, at least one. -/
def roundProgressInterval (micros : UInt64) : ℕ :=
  let n := micros.toNat
  let steps := max (n / 100000 + if 50000 ≤ n % 100000 then 1 else 0) 1
  min (steps * 100000) (2 ^ 64 - 1) * 1000

/-- Parse a verified packet: a message, or the error to answer it with. -/
def parseFlatbuf : Packet → Except ErrorKind V4Inbound
  | .load (some source) => .ok (.load (.fromFlat source) (.load source))
  | .progressChanged (some position) => .ok (.progressChanged (microsToNanos position))
  | .volumeChanged volume => .ok (.volumeChanged volume)
  | .playbackStateChanged state => .ok (.playbackStateChanged state)
  | .speedChanged speed => .ok (.speedChanged speed)
  | .senderIntroduction info => .ok (.senderIntroduction info)
  | .stopPlayback => .ok .stopPlayback
  | .startMirroringSession sessionId => .ok (.startMirroringSession sessionId)
  | .mirroringSessionDescription sessionId sdp =>
    .ok (.mirroringSessionDescription sessionId sdp)
  | .queueInsert item (some position) =>
    .ok (.queueInsert (.fromFlat item.mediaItem) (item.playbackDuration.map microsToNanos)
      position (.queueInsert item position))
  | .queueRemove (some position) => .ok (.queueRemove position)
  | .queueItemSelected (some position) => .ok (.queueItemSelected position)
  | .changeTrack id => .ok (.changeTrack id)
  | .addSubtitleSource url =>
    if url.isEmpty then .error .malformedBody else .ok .addSubtitleSource
  | .setProgressUpdateInterval (some interval) =>
    .ok (.setProgressUpdateInterval (roundProgressInterval interval))
  | .companionHelloRequest => .ok .companionHelloRequest
  | .companionResourceInfoResponse requestId contentType size =>
    .ok (.companionResourceInfoResponse requestId contentType size)
  | .load none | .progressChanged none | .queueInsert _ none | .queueRemove none
  | .queueItemSelected none | .setProgressUpdateInterval none => .error .malformedBody
  | .other => .error .invalidPayloadType

/-- What a version 4 sender asked the receiver to do. -/
inductive V4Command where
  | load (source : LoadSource) (raw : RawPacket)
  | seek (target : ℕ)
  | setVolume (volume : Double)
  | setSpeed (speed : Double)
  | pause
  | resume
  | stop
  | queueInsert (item : V4MediaItem) (playbackDuration : Option ℕ) (position : QueuePosition)
      (raw : RawPacket)
  | queueRemove (position : QueuePosition)
  | queueSelect (position : QueuePosition)
  | companionHello
  | companionInfo (requestId : UInt32) (contentType : String) (size : Option UInt64)
  | companionData (part : ResourcePart)
  | startMirroring (sessionId : UInt16)
  | mirroringOffer (sessionId : UInt16) (sdp : String)
  deriving DecidableEq, Repr

/-! ## Singles -/

/-- Whether a single is in `0.0..=1.0`. -/
def singleInUnit (b : UInt32) : Bool := Double.inUnit (.ofSingle b)

/-- `volume.clamp(0.0, 1.0)`, with `0.0` for a NaN. -/
def clampSingle (b : UInt32) : UInt32 :=
  if singleInUnit b then b
  else if 0x3F800000 < b ∧ b ≤ 0x7F800000 then 0x3F800000
  else 0

/-- Whether a single is finite and not zero. -/
def isRate (b : UInt32) : Bool := (b &&& 0x7F800000) != 0x7F800000 && (b &&& 0x7FFFFFFF) != 0

/-! ## The session -/

/-- One connection of a version 4 sender. -/
structure SessionV4 where
  /-- The number of the next packet in. -/
  packetNum : UInt32
  peer : Option DeviceInfo
  progressInterval : ℕ
  companionProvider : Option UInt16
  mirroringSession : Option UInt16
  lastRx : ℕ
  pingOutstanding : Bool
  deriving DecidableEq, Repr

namespace SessionV4

/-- A session that has just been upgraded; the `Version` before was packet 0. -/
def new (now : ℕ) : SessionV4 := ⟨1, none, 500000000, none, none, now, false⟩

abbrev Answer := SessionV4 × Reaction V4Frame V4Command

/-- Handle a message of packet `packetNum`. -/
def onMessage (session : SessionV4) (packetNum : UInt32) : V4Inbound → Answer
  | .senderIntroduction info => ({ session with peer := some info }, .nothing)
  | .load source raw => (session, .command? (.load source raw))
  | .progressChanged position => (session, .command? (.seek position))
  | .volumeChanged volume =>
    -- Out of range saturates, with the typed error beside the command.
    let error := if singleInUnit volume then []
      else [.error .volumeOutOfRange (some packetNum)]
    (session, ⟨error, some (.setVolume (.ofSingle (clampSingle volume)))⟩)
  | .speedChanged speed =>
    if isRate speed then (session, .command? (.setSpeed (.ofSingle speed)))
    else (session, ⟨[.error .rateOutOfRange (some packetNum)], some (.setSpeed .one)⟩)
  | .playbackStateChanged .paused => (session, .command? .pause)
  | .playbackStateChanged .playing => (session, .command? .resume)
  | .playbackStateChanged _ => (session, .reply (.error .invalidState (some packetNum)))
  | .stopPlayback => (session, .command? .stop)
  | .queueInsert item playbackDuration position raw =>
    (session, .command? (.queueInsert item playbackDuration position raw))
  | .queueRemove position => (session, .command? (.queueRemove position))
  | .queueItemSelected position => (session, .command? (.queueSelect position))
  | .setProgressUpdateInterval interval =>
    ({ session with progressInterval := interval }, .nothing)
  | .companionHelloRequest => (session, .command? .companionHello)
  | .startMirroringSession sessionId =>
    ({ session with mirroringSession := some sessionId }, .command? (.startMirroring sessionId))
  | .mirroringSessionDescription sessionId sdp =>
    if session.mirroringSession = some sessionId then
      (session, .command? (.mirroringOffer sessionId sdp))
    else (session, .reply (.error .invalidState (some packetNum)))
  | .changeTrack (some _) => (session, .reply (.error .malformedBody (some packetNum)))
  | .changeTrack none => (session, .nothing)
  | .addSubtitleSource => (session, .reply (.error .invalidState (some packetNum)))
  | .companionResourceInfoResponse requestId contentType size =>
    (session, .command? (.companionInfo requestId contentType size))

def onFrame (session : SessionV4) (now : ℕ) (frame : RawFrame) : Except SessionFault Answer :=
  let packetNum := session.packetNum
  let session := { session with
    packetNum := packetNum + 1, lastRx := now, pingOutstanding := false }
  match frame with
  | .ping => .ok (session, .reply .pong)
  | .pong => .ok (session, .nothing)
  | .emptyFlatbuf => .error .missingBody
  | .flatbuf none => .error .malformedFlatbuf
  | .flatbuf (some packet) =>
    match parseFlatbuf packet with
    | .ok message => .ok (session.onMessage packetNum message)
    | .error kind => .ok (session, .reply (.error kind (some packetNum)))
  | .resource none => .error .malformedResource
  | .resource (some part) => .ok (session, .command? (.companionData part))
  | .other => .ok (session, .reply (.error .invalidOpcode (some packetNum)))

def onTick (session : SessionV4) (now : ℕ) : Except SessionFault (SessionV4 × Option V4Frame) :=
  match heartbeat now session.lastRx session.pingOutstanding with
  | .error fault => .error fault
  | .ok false => .ok (session, none)
  | .ok true => .ok ({ session with pingOutstanding := true }, some .ping)

end SessionV4

/-! ## Updates -/

/-- Our playback state in the words of version 4. -/
def v4State : PlayState → PlaybackState
  | .idle => .idle
  | .playing => .playing
  | .paused => .paused

/-- An update as a version 4 sender is told it, or `none` when it is not. -/
def v4UpdateFrame : ReceiverUpdate → Option V4Frame
  | .playback snapshot => some (.playbackStateChanged (v4State snapshot.state))
  | .volume volume => some (.volumeChanged (.ofDouble volume))
  | .speedActual speed => some (.speedChanged (.ofDouble speed))
  | .error _ kind => some (.error kind none)
  | .playChanged none => some .stopPlayback
  | .playChanged (some _) | .mediaItem _ _ => none
  | .v4Load raw | .queueInsertRelay raw => some (strippedRelayFrame raw)
  | .queueRemoveRelay position => some (.queueRemove position)
  | .queueSelectRelay position _ => some (.queueItemSelected position)
  | .progress position duration =>
    some (.progressChanged (toMicros position) (duration.map toMicros))

end Castaway.FCast
