import Castaway.FCast.Queue
import Castaway.FCast.SessionV4

/-!
# The receiver

What the connections share is behind one lock: the player, the connected peers,
and the three tables of the companion reads.  An actor holds the lock for one
step at a time.  A frame takes it twice, once to go through its session and once
to apply the command that came out, and a disconnect takes it three times; in
between anyone else may take it.  `Action` is one such step.

The clock, the pipeline, the mirroring backend and the network are the `Env` of
a step.
-/

namespace Castaway.FCast

open Castaway.Core (PlaybackEnd SourceDescription MirrorAudio)
open Function

/-! ## What does not change -/

structure Shared where
  identity : ReceiverIdentity
  /-- Whether there is a mirroring backend. -/
  mirror : Bool
  localHost : Option LocalHost
  lib : Libraries
  display : Double → String
  /-- Whether a frame is under the packet ceiling, so that `wire::encode` takes
  it. -/
  fits : Frame → Bool

/-! ## Peers -/

inductive PeerSession where
  | json (session : Session)
  | v4 (session : SessionV4)
  deriving DecidableEq, Repr

def PeerSession.companionProvider : PeerSession → Option UInt16
  | .json _ => none
  | .v4 session => session.companionProvider

def PeerSession.updateFrame (wallMs : ℕ) (update : ReceiverUpdate) : PeerSession → Option Frame
  | .json session => (session.frameUpdate wallMs update).map .json
  | .v4 _ => (v4UpdateFrame update).map .v4

inductive Command where
  | json (command : SenderCommand)
  | v4 (command : V4Command)
  deriving DecidableEq, Repr

/-- What the actor of a connection does next: read, apply the command of the
frame it has read, or disconnect. -/
inductive Actor where
  | reading
  | carrying (command : Command)
  | closing
  deriving DecidableEq, Repr

structure Peer where
  session : PeerSession
  actor : Actor
  /-- How many frames wait in the channel to the writer. -/
  queued : ℕ
  /-- Whether the writer still takes frames. -/
  writing : Bool
  /-- Every frame that was put into the channel. -/
  sent : List Frame
  /-- Whether a frame was not. -/
  dropped : Bool
  deriving DecidableEq, Repr

/-- Outbound frames queued per connection. -/
def outboundQueue : ℕ := 64

namespace Peer

variable (shared : Shared)

def new (session : PeerSession) : Peer := ⟨session, .reading, 0, true, [], false⟩

def sendFrame (peer : Peer) (frame : Frame) : Peer :=
  if shared.fits frame && peer.writing && peer.queued < outboundQueue then
    { peer with queued := peer.queued + 1, sent := peer.sent ++ [frame] }
  else { peer with dropped := true }

def sendFrames (peer : Peer) (frames : List Frame) : Peer :=
  frames.foldl (fun peer frame => peer.sendFrame shared frame) peer

end Peer

/-! ## Companion reads -/

inductive PendingKind where
  | info
  | data (read : ResourceRead)
  deriving DecidableEq, Repr

/-- A companion read waiting on the sender that owns the resource. -/
structure PendingRead where
  url : CompanionUrl
  kind : PendingKind
  deriving DecidableEq, Repr

/-- What a companion read came to. -/
inductive Answer where
  | info (contentType : String) (size : Option UInt64)
  | data (bytes : Bytes)
  | notFound (url : String)
  | malformed (detail : String)
  /-- No connected sender owns the provider. -/
  | unowned (provider : UInt16)
  | wentAway
  | timedOut (provider : UInt16)
  deriving DecidableEq, Repr

/-- What a task asks of the owner of a resource. -/
inductive Ask where
  | info
  | range (start stopInclusive : UInt64)
  deriving DecidableEq, Repr

def Ask.pending : Ask → PendingKind
  | .info => .info
  | .range _ _ => .data .new

def Ask.frame (requestId : UInt32) (url : CompanionUrl) : Ask → Frame
  | .info => .v4 (.companionResourceInfoRequest requestId url.resource)
  | .range start stop => .v4 (.companionResourceRequest requestId url.resource start stop)

/-- A disconnect under way: the peer is gone, its provider id not yet free. -/
structure Leaving where
  peer : ℕ
  provider : UInt16
  /-- Its reads have been abandoned. -/
  abandoned : Bool
  deriving DecidableEq, Repr

/-! ## The state -/

/-- Everything behind the lock, and beside it the request ids drawn and the
reads somebody awaits. -/
structure Inner where
  player : Player
  peers : ℕ → Option Peer
  nextPeer : ℕ
  providers : List UInt16
  reads : UInt32 → Option PendingRead
  nextRequest : UInt32
  /-- Request ids drawn for reads that are not registered yet. -/
  reserved : List UInt32
  /-- The reads whose answer somebody awaits. -/
  awaited : List UInt32
  /-- The reads that somebody awaited for too long and is about to remove. -/
  expired : List UInt32
  leaving : List Leaving
  /-- The companion resources that were missing while they were current, each as
  the message about it. -/
  missing : List String

def Inner.new : Inner where
  player := .new
  peers := fun _ => none
  nextPeer := 0
  providers := []
  reads := fun _ => none
  nextRequest := 1
  reserved := []
  awaited := []
  expired := []
  leaving := []
  missing := []

/-- What a mirroring backend answers an offer with. -/
structure MirrorAnswer where
  sdp : String
  video : ℕ
  audio : Option (MirrorAudio payloads)

/-- What a step reads from outside. -/
structure Env where
  wallMs : ℕ
  /-- Where the pipeline is. -/
  progress : Option PlaybackProgress
  /-- A `play` with its media published or fetched, when there is a local host.
  -/
  resolved : PlayMessage → PlayMessage
  mirror : Except String MirrorAnswer
  /-- The address of the peer. -/
  address : String

/-- What a step gives to the outside. -/
structure Output where
  events : List SessionEvent
  answers : List (UInt32 × Answer)

def Output.nothing : Output := ⟨[], []⟩

namespace Inner

variable (shared : Shared)

def setPeer (inner : Inner) (id : ℕ) (peer : Option Peer) : Inner :=
  { inner with peers := update inner.peers id peer }

/-- Change a peer, if it is still connected. -/
def onPeer (inner : Inner) (id : ℕ) (f : Peer → Peer) : Inner :=
  { inner with peers := update inner.peers id ((inner.peers id).map f) }

@[simp] theorem setPeer_self (inner : Inner) (id : ℕ) (peer : Option Peer) :
    (inner.setPeer id peer).peers id = peer := update_self ..

theorem setPeer_of_ne (inner : Inner) {id other : ℕ} (h : other ≠ id) (peer : Option Peer) :
    (inner.setPeer id peer).peers other = inner.peers other := update_of_ne h ..

@[simp] theorem onPeer_self (inner : Inner) (id : ℕ) (f : Peer → Peer) :
    (inner.onPeer id f).peers id = (inner.peers id).map f := update_self ..

theorem onPeer_of_ne (inner : Inner) {id other : ℕ} (h : other ≠ id) (f : Peer → Peer) :
    (inner.onPeer id f).peers other = inner.peers other := update_of_ne h ..

/-- Queue one frame to a peer, if it is still connected. -/
def sendTo (inner : Inner) (id : ℕ) (frame : Frame) : Inner :=
  inner.onPeer id fun peer => peer.sendFrame shared frame

/-! ## Broadcasts -/

/-- The updates that the peer they come from is not told. -/
def isEcho : ReceiverUpdate → Bool
  | .v4Load _ | .queueInsertRelay _ | .queueRemoveRelay _ | .queueSelectRelay _ false => true
  | _ => false

/-- The frames that a peer is sent of some updates.  `own` when they come from
it. -/
def framesFor (wallMs : ℕ) (updates : List ReceiverUpdate) (own : Bool)
    (session : PeerSession) : List Frame :=
  (updates.filter fun update => !(own && isEcho update)).filterMap
    fun update => session.updateFrame wallMs update

/-- Fan updates out to every peer, each in its own dialect. -/
def broadcast (inner : Inner) (wallMs : ℕ) (updates : List ReceiverUpdate)
    (initiator : Option ℕ) : Inner :=
  { inner with
    peers := fun id => (inner.peers id).map fun peer =>
      peer.sendFrames shared (framesFor wallMs updates (some id == initiator) peer.session) }

/-- The frame that refuses, in the dialect of the peer that asked. -/
def refusalFrame (wallMs : ℕ) (refusal : Refusal) : PeerSession → Option Frame
  | .json session =>
    (session.frameUpdate wallMs (.error refusal.message refusal.kind)).map .json
  | .v4 _ => some (.v4 (.error refusal.kind none))

def refuse (inner : Inner) (wallMs : ℕ) (id : Option ℕ) (refusal : Refusal) : Inner :=
  match id with
  | none => inner
  | some id => inner.onPeer id fun peer =>
    peer.sendFrames shared (refusalFrame wallMs refusal peer.session).toList

/-- What an operation of the player came to: its updates go out, or its refusal
goes back. -/
def settle (inner : Inner) (wallMs : ℕ) (id : Option ℕ) (result : Player × Except Fault Applied) :
    Inner × Except Fault (List SessionEvent) :=
  let inner := { inner with player := result.1 }
  match result.2 with
  | .ok applied => (inner.broadcast shared wallMs applied.updates id, .ok applied.events)
  | .error (.refused refusal) =>
    (inner.refuse shared wallMs id refusal, .error (.refused refusal))
  | .error .panic => (inner, .error .panic)

/-- The events of an operation, of which a refused one has none. -/
def emitted : Except Fault (List SessionEvent) → Output
  | .ok events => ⟨events, []⟩
  | .error _ => .nothing

def clampSeek (env : Env) (target : ℕ) : ℕ × Bool :=
  match env.progress.bind PlaybackProgress.duration with
  | some duration => if duration < target then (duration, true) else (target, false)
  | none => (target, false)

/-! ## Versions 1 to 3 -/

def operation (env : Env) : SenderCommand → Operation
  | .load play => .load (if shared.localHost.isSome then env.resolved play else play)
  | .pause => .pause
  | .resume => .resume
  | .stop => .stop
  | .seek target => .seek (clampSeek env target).1
  | .setVolume volume => .setVolume volume
  | .setSpeed speed => .setSpeed speed (shared.display speed)
  | .setPlaylistItem index => .setPlaylistItem index

def apply (inner : Inner) (env : Env) (id : Option ℕ) (command : SenderCommand) :
    Inner × Except Fault (List SessionEvent) :=
  inner.settle shared env.wallMs id
    (inner.player.apply shared.lib (operation shared env command))

def sourceDescription (address : String) (info : Option DeviceInfo) : SourceDescription where
  displayName := info.bind fun info => info.displayName.or info.appName
  address := some address
  link := none

/-- The events of a load that was accepted end with who it came from. -/
def withSource (env : Env) (info : Option DeviceInfo) (isLoad : Bool)
    (events : Except Fault (List SessionEvent)) : Except Fault (List SessionEvent) :=
  if isLoad then events.map (· ++ [.sourceInfo (sourceDescription env.address info)])
  else events

def isLoadJson : SenderCommand → Bool
  | .load _ => true
  | _ => false

def applyJson (inner : Inner) (env : Env) (id : ℕ) (info : Option DeviceInfo)
    (command : SenderCommand) : Inner × Output :=
  let (inner, events) := inner.apply shared env (some id) command
  (inner, emitted (withSource env info (isLoadJson command) events))

/-! ## Version 4 -/

/-- Point an item at the local proxy when its source is an `fcomp://` URL. -/
def resolveItem (host : Option LocalHost) (item : V4MediaItem) : V4MediaItem :=
  match host, CompanionUrl.parse item.sourceUrl with
  | some host, some url => { item with sourceUrl := host.companionUrl url }
  | _, _ => item

def resolveSource (host : Option LocalHost) : LoadSource → LoadSource
  | .single item => .single (resolveItem host item)
  | .queue items startIndex autoplay =>
    .queue (items.map fun item => (resolveItem host item.1, item.2)) startIndex autoplay

/-- What a version 4 command asks of the player, for those that do. -/
def operationV4 (env : Env) : V4Command → Option Operation
  | .load source raw => some (.loadV4 (resolveSource shared.localHost source) raw)
  | .seek target => some (.seek (clampSeek env target).1)
  | .setVolume volume => some (.setVolume volume)
  | .setSpeed speed => some (.setSpeed speed (shared.display speed))
  | .pause => some .pause
  | .resume => some .resume
  | .stop => some .stop
  | .queueInsert item _ position raw =>
    some (.queueInsertV4 (resolveItem shared.localHost item) position raw)
  | .queueRemove position => some (.queueRemoveV4 position)
  | .queueSelect position => some (.queueSelectV4 position)
  | .companionHello | .companionInfo .. | .companionData _ | .startMirroring _
  | .mirroringOffer .. => none

/-- Version 4 senders are also told the speed that is in force. -/
def withSpeed (command : V4Command) (result : Player × Except Fault Applied) :
    Player × Except Fault Applied :=
  match command with
  | .setSpeed _ => (result.1, result.2.map fun applied =>
    { applied with updates := applied.updates ++ [.speedActual .one] })
  | _ => result

/-- The typed error of a seek past the end, sent before the seek. -/
def seekError (env : Env) : V4Command → Bool
  | .seek target => (clampSeek env target).2
  | _ => false

def applyOperation (inner : Inner) (env : Env) (id : ℕ) (command : V4Command)
    (op : Operation) : Inner × Except Fault (List SessionEvent) :=
  let inner :=
    if seekError env command then inner.sendTo shared id (.v4 (.error .seekOutOfRange none))
    else inner
  inner.settle shared env.wallMs (some id)
    (withSpeed command (inner.player.apply shared.lib op))

/-- The lowest id from `id` on that is not taken, among so many. -/
def firstFree (taken : ℕ → Bool) : ℕ → ℕ → Option ℕ
  | 0, _ => none
  | fuel + 1, id => if taken id then firstFree taken fuel (id + 1) else some id

def freeProvider (providers : List UInt16) : UInt16 :=
  .ofNat ((firstFree (fun id => .ofNat id ∈ providers) 65536 0).getD 0)

/-- Put an id into the set of those taken. -/
def insertProvider (providers : List UInt16) (id : UInt16) : List UInt16 :=
  if id ∈ providers then providers else id :: providers

def setCompanionProvider (id : UInt16) : PeerSession → PeerSession
  | .json session => .json session
  | .v4 session => .v4 { session with companionProvider := some id }

def companionHello (inner : Inner) (id : ℕ) : Inner :=
  let provider := freeProvider inner.providers
  let inner := { inner with providers := insertProvider inner.providers provider }
  inner.onPeer id fun peer =>
    ({ peer with session := setCompanionProvider provider peer.session } : Peer).sendFrame shared
      (.v4 (.companionHelloResponse provider))

def noMirroring : Refusal := ⟨"mirroring is not offered by this receiver", .invalidState⟩

def answerMirroring (inner : Inner) (env : Env) (id : ℕ) (sessionId : UInt16) :
    Inner × List SessionEvent :=
  if shared.mirror then
    match env.mirror with
    | .ok answer =>
      (inner.sendTo shared id (.v4 (.mirroringSessionDescription sessionId answer.sdp)),
        [.mirror answer.video answer.audio])
    | .error e => (inner.refuse shared env.wallMs (some id) ⟨"mirroring: " ++ e, .internal⟩, [])
  else (inner.refuse shared env.wallMs (some id) noMirroring, [])

/-! ### Answers to companion reads -/

/-- Somebody who still awaits the read is given its answer. -/
def answer (inner : Inner) (request : UInt32) (answer : Answer) : Inner × Output :=
  if request ∈ inner.awaited then
    ({ inner with awaited := inner.awaited.erase request }, ⟨[], [(request, answer)]⟩)
  else (inner, .nothing)

def setRead (inner : Inner) (request : UInt32) (read : Option PendingRead) : Inner :=
  { inner with reads := update inner.reads request read }

def deliverInfo (inner : Inner) (request : UInt32) (contentType : String)
    (size : Option UInt64) : Inner × Output :=
  match inner.reads request with
  | some ⟨_, .info⟩ => (inner.setRead request none).answer request (.info contentType size)
  | some ⟨_, .data _⟩ | none => (inner, .nothing)

def deliverData (inner : Inner) (part : ResourcePart) : Inner × Output :=
  match inner.reads part.requestId with
  | none | some ⟨_, .info⟩ => (inner, .nothing)
  | some ⟨url, .data read⟩ =>
    match read.push part with
    | .ok (read, .more) => (inner.setRead part.requestId (some ⟨url, .data read⟩), .nothing)
    | .ok (_, .complete data) =>
      (inner.setRead part.requestId none).answer part.requestId (.data data)
    | .ok (_, .notFound) =>
      (inner.setRead part.requestId none).answer part.requestId (.notFound url.toUrl)
    | .error detail =>
      (inner.setRead part.requestId none).answer part.requestId (.malformed detail)

def isLoadV4 : V4Command → Bool
  | .load _ _ => true
  | _ => false

def applyV4 (inner : Inner) (env : Env) (id : ℕ) (info : Option DeviceInfo)
    (command : V4Command) : Inner × Output :=
  match operationV4 shared env command with
  | some op =>
    let (inner, events) := inner.applyOperation shared env id command op
    (inner, emitted (withSource env info (isLoadV4 command) events))
  | none =>
    match command with
    | .companionHello => (inner.companionHello shared id, .nothing)
    | .companionInfo request contentType size => inner.deliverInfo request contentType size
    | .companionData part => inner.deliverData part
    | .mirroringOffer sessionId _ =>
      let result := inner.answerMirroring shared env id sessionId
      (result.1, ⟨result.2, []⟩)
    | _ =>
      -- `StartMirroring`
      if shared.mirror then (inner, .nothing)
      else (inner.refuse shared env.wallMs (some id) noMirroring, .nothing)

/-! ### The tasks that read -/

/-- Which connection owns `provider`, if one still does. -/
def providerPeer (inner : Inner) (provider : UInt16) : Option ℕ :=
  (List.range inner.nextPeer).find? fun id =>
    (inner.peers id).bind (fun peer => peer.session.companionProvider) == some provider

def register (inner : Inner) (request : UInt32) (url : CompanionUrl) (ask : Ask) : Inner × Output :=
  if request ∈ inner.reserved then
    let inner := { inner with reserved := inner.reserved.erase request }
    match inner.providerPeer url.provider with
    | none => (inner, ⟨[], [(request, .unowned url.provider)]⟩)
    | some id =>
      -- a read of the same id that is replaced will not be answered any more
      let (inner, replaced) := inner.answer request .wentAway
      let inner := { inner with awaited := request :: inner.awaited }
      ((inner.setRead request (some ⟨url, ask.pending⟩)).sendTo shared id
        (ask.frame request url), replaced)
  else (inner, .nothing)

/-! ## Connecting and disconnecting -/

def connectJson (inner : Inner) : Inner :=
  { inner.setPeer inner.nextPeer (some (.new (.json .new))) with nextPeer := inner.nextPeer + 1 }

/-- What a version 4 sender is sent on connecting: who we are, the volume, and
the single item that is playing. -/
def introduction (inner : Inner) : List Frame :=
  [.v4 (.receiverIntroduction shared.identity shared.mirror),
    .v4 (.volumeChanged (.ofDouble inner.player.volume))] ++
  match inner.player.v4SingleRaw with
  | none => []
  | some raw => [.v4 (strippedRelayFrame raw),
      .v4 (.playbackStateChanged (v4State (inner.player.snapshot none).state))]

def connectV4 (inner : Inner) (now : ℕ) : Inner :=
  let peer := (Peer.new (.v4 (.new now))).sendFrames shared (inner.introduction shared)
  { inner.setPeer inner.nextPeer (some peer) with nextPeer := inner.nextPeer + 1 }

/-- The first step of a disconnect: the peer goes. -/
def leave (inner : Inner) (id : ℕ) : Inner :=
  match inner.peers id with
  | none => inner
  | some peer =>
    match peer.actor with
    | .carrying _ => inner
    | .reading | .closing =>
      let left := (peer.session.companionProvider.map fun provider =>
        (⟨id, provider, false⟩ : Leaving)).toList
      { inner.setPeer id none with leaving := inner.leaving ++ left }

/-- Whether a pending read is one of `provider`. -/
def PendingRead.ownedBy (provider : UInt16) (read : PendingRead) : Bool :=
  read.url.provider == provider

/-- The second step: the reads that the peer was answering are abandoned. -/
def abandon (inner : Inner) (id : ℕ) : Inner × Output :=
  match inner.leaving.find? fun entry => entry.peer == id && !entry.abandoned with
  | none => (inner, .nothing)
  | some entry =>
    let isOwned := fun request =>
      (inner.reads request).any (PendingRead.ownedBy entry.provider)
    ({ inner with
        reads := fun request => if isOwned request then none else inner.reads request
        awaited := inner.awaited.filter fun request => !isOwned request
        leaving := inner.leaving.map fun other =>
          if other = entry then { other with abandoned := true } else other },
      ⟨[], (inner.awaited.filter isOwned).map fun request => (request, .wentAway)⟩)

/-- The third step: the provider id is free again. -/
def release (inner : Inner) (id : ℕ) : Inner :=
  match inner.leaving.find? fun entry => entry.peer == id && entry.abandoned with
  | none => inner
  | some entry =>
    { inner with
      providers := inner.providers.filter (· ≠ entry.provider)
      leaving := inner.leaving.filter (· ≠ entry) }

/-! ## Frames in -/

def act (inner : Inner) (id : ℕ) (peer : Peer) (session : PeerSession) (replies : List Frame)
    (command : Option Command) : Inner :=
  let actor := match command with
    | some command => .carrying command
    | none => .reading
  inner.setPeer id (some (({ peer with session, actor } : Peer).sendFrames shared replies))

/-- A frame from a version 1 to 3 sender goes through its session. -/
def jsonFrame (inner : Inner) (id now wallMs : ℕ) (frame : JsonInbound) : Inner :=
  match inner.peers id with
  | some peer =>
    match peer.actor, peer.session with
    | .reading, .json session =>
      let ctx := ⟨wallMs, shared.identity, inner.player.playData, inner.player.volume⟩
      match session.onFrame now ctx frame with
      | .ok (session, reaction) =>
        inner.act shared id peer (.json session) (reaction.replies.map .json)
          (reaction.command.map .json)
      | .error _ => inner.setPeer id (some { peer with actor := .closing })
    | _, _ => inner
  | none => inner

/-- A frame from a version 4 sender goes through its session. -/
def v4Frame (inner : Inner) (id now : ℕ) (frame : RawFrame) : Inner :=
  match inner.peers id with
  | some peer =>
    match peer.actor, peer.session with
    | .reading, .v4 session =>
      match session.onFrame now frame with
      | .ok (session, reaction) =>
        inner.act shared id peer (.v4 session) (reaction.replies.map .v4)
          (reaction.command.map .v4)
      | .error _ => inner.setPeer id (some { peer with actor := .closing })
    | _, _ => inner
  | none => inner

def PeerSession.info : PeerSession → Option DeviceInfo
  | .json session => session.peer
  | .v4 session => session.peer

def applyCommand (inner : Inner) (env : Env) (id : ℕ) : Inner × Output :=
  match inner.peers id with
  | some peer =>
    match peer.actor with
    | .carrying command =>
      let info := PeerSession.info peer.session
      let inner := inner.setPeer id (some { peer with actor := .reading })
      match command with
      | .json command => inner.applyJson shared env id info command
      | .v4 command => inner.applyV4 shared env id info command
    | .reading | .closing => (inner, .nothing)
  | none => (inner, .nothing)

/-! ## The panel, the pipeline and the clock -/

/-- What the panel asks for through FCast's remote control. -/
inductive Panel where
  | play
  | pause
  | stop
  | seek (target : ℕ)
  | volume (level : UInt32)
  | mute (muted : Bool)
  | next
  | previous
  deriving DecidableEq, Repr

/-- `FCastRemote::issue_unchecked`. -/
def issue (inner : Inner) (env : Env) : Panel → Inner × Except Fault (List SessionEvent)
  | .play => inner.apply shared env none .resume
  | .pause => inner.apply shared env none .pause
  | .stop => inner.apply shared env none .stop
  | .seek target => inner.apply shared env none (.seek target)
  | .volume level => inner.apply shared env none (.setVolume (.ofSingle level))
  | .mute muted => (inner, .ok [.control (.mute muted)])
  | .next => inner.settle shared env.wallMs none (inner.player.step true)
  | .previous => inner.settle shared env.wallMs none (inner.player.step false)

def mediaEnded (inner : Inner) (env : Env) (ending : PlaybackEnd) :
    Inner × Except Fault (List SessionEvent) :=
  inner.settle shared env.wallMs none (inner.player.mediaEnded ending)

def currentCompanion (inner : Inner) : Option CompanionUrl :=
  shared.localHost.bind fun host =>
    inner.player.current?.bind fun item => host.companionOf item.request.uri.text

/-- The media that was loaded cannot be obtained: say so to every session, and
stop. -/
def mediaFailed (inner : Inner) (env : Env) (message : String) :
    Inner × Except Fault (List SessionEvent) :=
  let inner := inner.broadcast shared env.wallMs [.error message .resourceNotFound] none
  inner.settle shared env.wallMs none (Player.done inner.player.stop)

def progressFrame (wallMs : ℕ) (snapshot : PlaybackSnapshot) : PeerSession → Option Frame
  | .json session => (session.frameUpdate wallMs (.playback snapshot)).map .json
  | .v4 _ => snapshot.time.map fun time =>
    .v4 (.progressChanged (toMicros (time.toDuration?.getD 0))
      (snapshot.duration.map fun duration => toMicros (duration.toDuration?.getD 0)))

def progress (inner : Inner) (env : Env) (due : ℕ → Bool) : Inner :=
  let snapshot := inner.player.snapshot env.progress
  if snapshot.state = .idle then inner
  else
    { inner with
      peers := fun id => (inner.peers id).map fun peer =>
        peer.sendFrames shared (if due id then
          (progressFrame env.wallMs snapshot peer.session).toList else []) }

def PeerSession.onTick (now : ℕ) : PeerSession → Except SessionFault (PeerSession × Option Frame)
  | .json session => (session.onTick now).map fun (session, ping) => (.json session, ping.map .json)
  | .v4 session => (session.onTick now).map fun (session, ping) => (.v4 session, ping.map .v4)

def tickOne (now : ℕ) (peer : Peer) : Peer :=
  match peer.actor with
  | .reading =>
    match PeerSession.onTick now peer.session with
    | .ok (session, ping) => ({ peer with session } : Peer).sendFrames shared ping.toList
    | .error _ => { peer with actor := .closing }
  | .carrying _ | .closing => peer

/-- Heartbeat one peer, whichever dialect it speaks. -/
def tickPeer (inner : Inner) (id now : ℕ) : Inner := inner.onPeer id (tickOne shared now)

/-! ## Steps -/

inductive Action where
  | connectJson
  | connectV4 (now : ℕ)
  | jsonFrame (id now wallMs : ℕ) (frame : JsonInbound)
  | v4Frame (id now : ℕ) (frame : RawFrame)
  | applyCommand (env : Env) (id : ℕ)
  | leave (id : ℕ)
  | abandon (id : ℕ)
  | release (id : ℕ)
  | issue (env : Env) (panel : Panel)
  | mediaEnded (env : Env) (ending : PlaybackEnd)
  /-- A companion resource cannot be read. -/
  | verify (url : CompanionUrl) (message : String)
  /-- The media that was found missing fails. -/
  | mediaFailed (env : Env) (message : String)
  | progress (env : Env) (due : ℕ → Bool)
  | tick (id now : ℕ)
  /-- The writer of a connection takes a frame. -/
  | written (id : ℕ)
  /-- The writer of a connection stops. -/
  | writerStopped (id : ℕ)
  /-- A task draws a request id. -/
  | reserve
  | register (request : UInt32) (url : CompanionUrl) (ask : Ask)
  /-- A read has waited long enough. -/
  | timeOut (request : UInt32)
  /-- The task whose read timed out removes it. -/
  | forget (request : UInt32)

/-- A step that only emits events. -/
def emitting (result : Inner × Except Fault (List SessionEvent)) : Inner × Output :=
  (result.1, emitted result.2)

def step (inner : Inner) : Action → Inner × Output
  | .connectJson => (inner.connectJson, .nothing)
  | .connectV4 now => (inner.connectV4 shared now, .nothing)
  | .jsonFrame id now wallMs frame => (inner.jsonFrame shared id now wallMs frame, .nothing)
  | .v4Frame id now frame => (inner.v4Frame shared id now frame, .nothing)
  | .applyCommand env id => inner.applyCommand shared env id
  | .leave id => (inner.leave id, .nothing)
  | .abandon id => inner.abandon id
  | .release id => (inner.release id, .nothing)
  | .issue env panel => emitting (inner.issue shared env panel)
  | .mediaEnded env ending => emitting (inner.mediaEnded shared env ending)
  | .verify url message =>
    if inner.currentCompanion shared = some url then
      ({ inner with missing := message :: inner.missing }, .nothing)
    else (inner, .nothing)
  | .mediaFailed env message =>
    if message ∈ inner.missing then
      emitting (({ inner with missing := inner.missing.erase message } : Inner).mediaFailed
        shared env message)
    else (inner, .nothing)
  | .progress env due => (inner.progress shared env due, .nothing)
  | .tick id now => (inner.tickPeer shared id now, .nothing)
  | .written id => (inner.onPeer id fun peer => { peer with queued := peer.queued - 1 }, .nothing)
  | .writerStopped id => (inner.onPeer id fun peer => { peer with writing := false }, .nothing)
  | .reserve =>
    ({ inner with
        nextRequest := inner.nextRequest + 1
        reserved := inner.nextRequest :: inner.reserved }, .nothing)
  | .register request url ask => inner.register shared request url ask
  | .timeOut request =>
    match inner.reads request with
    | some read =>
      if request ∈ inner.awaited then
        ({ inner with expired := request :: inner.expired } : Inner).answer request
          (.timedOut read.url.provider)
      else (inner, .nothing)
    | none => (inner, .nothing)
  | .forget request =>
    if request ∈ inner.expired then
      -- a later read of the same id that is removed will not be answered any more
      let (inner, removed) :=
        ({ inner with expired := inner.expired.erase request } : Inner).answer request .wentAway
      (inner.setRead request none, removed)
    else (inner, .nothing)

def run (actions : List Action) : Inner :=
  actions.foldl (fun inner action => (inner.step shared action).1) .new

end Inner

end Castaway.FCast
