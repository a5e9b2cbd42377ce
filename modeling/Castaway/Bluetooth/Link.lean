import Castaway.Bluetooth.Sink
import Castaway.L2cap.Mux

/-!
# One link of the adapter

What the adapter keeps for a phone, and what it does when the multiplexer of the
link tells it something: which channel has which role, and where the audio
session is.

The parsers behind the roles stay parameters (`Clients`): media packets, the
query for the image server, and the image session.  What the AVRCP handler asks
for is an input (`Advice`), since all that it does to the roles is to open cover
art.
-/

namespace Castaway.Bluetooth

open Castaway.Core (AudioCodec AudioFormat)
open Castaway.L2cap (ChannelMode Cid L2capEvent L2capPdu Multiplexer Psm)

/-! ## The audio session -/

/-- The sending end of a queue that is never waited for. -/
structure LossySender where
  queued : List Bytes
  /-- The receiver has not been dropped. -/
  receiving : Bool
  deriving DecidableEq, Repr

inductive LossySend where
  | sent
  | dropped
  | closed
  deriving DecidableEq, Repr

def audioQueueDepth : ℕ := 256

namespace LossySender

def new : LossySender := ⟨[], true⟩

def send (tx : LossySender) (frame : Bytes) : LossySender × LossySend :=
  if !tx.receiving then (tx, .closed)
  else if tx.queued.length ≥ audioQueueDepth then (tx, .dropped)
  else ({ tx with queued := tx.queued ++ [frame] }, .sent)

end LossySender

inductive AudioSession (δ : Type) where
  | closed
  /-- The shape of the stream is known, and no session is announced yet. -/
  | configured (format : AudioFormat) (depacketizer : δ)
  /-- The session is announced and not ended, and frames flow. -/
  | open (format : AudioFormat) (depacketizer : δ) (tx : LossySender)

namespace AudioSession

variable {δ : Type}

def isOpen : AudioSession δ → Bool
  | .open .. => true
  | _ => false

def format : AudioSession δ → Option AudioFormat
  | .closed => none
  | .configured format _ | .open format _ _ => some format

end AudioSession

/-! ## The link -/

/-- What the session manager is told of a link. -/
inductive Emission where
  | audio (format : AudioFormat)
  | sourceInfo
  | controlSurface
  | ended
  deriving DecidableEq, Repr

/-- The image channel, and the session on it once it is open. -/
inductive CoverArt (A : Type) where
  | dialling
  | session (session : A)

/-- The parsers of what the channels carry. -/
structure Clients (δ Q A : Type) where
  depacketizer : AudioCodec → ℕ → δ
  /-- New parameters, and the same record of losses. -/
  reconfigured : δ → AudioCodec → ℕ → δ
  /-- The frame of a media packet, if it can be read. -/
  push : δ → Bytes → δ × Option Bytes
  query : Q
  nextRequest : Q → Option Bytes
  /-- Read a response: whether it was the last, or an error. -/
  feed : Q → Bytes → Q × Except Unit Bool
  coverArtPsm : Q → Option UInt16
  /-- An image session for a channel, and its first request. -/
  session : UInt16 → A × Option Bytes
  /-- Whether an image is on its way. -/
  fetching : A → Bool
  /-- Our own service records' answer to a query. -/
  sdp : Bytes → Bytes
  /-- The AVRCP keypress that pauses a player. -/
  pause : List Bytes

structure Link (δ Q A : Type) where
  mux : Multiplexer
  sink : SinkSession
  avdtpSignaling : Option Cid
  avdtpMedia : Option Cid
  avctp : Option Cid
  audio : AudioSession δ
  /-- There is a handle that drives the phone. -/
  control : Bool
  /-- Where the peer serves images, once it has said so. -/
  artPsm : Option UInt16
  artSdp : Option (Cid × Q)
  art : Option (Cid × CoverArt A)
  /-- How often the peer has closed the image channel on a fetch. -/
  artStrikes : ℕ

/-- What the handlers want sent, and what they tell. -/
structure Outbox where
  /-- By our identifier of the channel. -/
  replies : List (Cid × Bytes)
  /-- Addressed already. -/
  signalling : List L2capPdu
  /-- Handed to the writer at once. -/
  direct : List L2capPdu
  started : Bool
  emitted : List Emission

namespace Outbox

def empty : Outbox := ⟨[], [], [], false, []⟩

def reply (out : Outbox) (cid : Cid) (payload : Bytes) : Outbox :=
  { out with replies := out.replies ++ [(cid, payload)] }

def emit (out : Outbox) (emission : Emission) : Outbox :=
  { out with emitted := out.emitted ++ [emission] }

/-- The signalling among some events of the multiplexer. -/
def pdus (events : List L2capEvent) : List L2capPdu :=
  events.filterMap fun event =>
    match event with
    | .send pdu => some pdu
    | _ => none

def queueSignalling (out : Outbox) (events : List L2capEvent) : Outbox :=
  { out with signalling := out.signalling ++ pdus events }

end Outbox

/-- What the AVRCP handler or the image session makes of what it is given. -/
structure Advice (A : Type) where
  replies : List (Cid × Bytes)
  session : A → A
  opensArt : Bool

def artStrikesLimit : ℕ := 2

namespace Link

variable {δ Q A : Type} (clients : Clients δ Q A)

/-- A link to a phone that has just come up. -/
def new (capabilities : List CodecCapability) (sinkDelay : ℕ) : Link δ Q A where
  mux := (((Multiplexer.new 1017).listen .sdp).listen .avdtp).listen .avctp
  sink := (SinkSession.new capabilities).setReportedDelay sinkDelay
  avdtpSignaling := none
  avdtpMedia := none
  avctp := none
  audio := .closed
  control := false
  artPsm := none
  artSdp := none
  art := none
  artStrikes := 0

/-- A role that comes with a client is a channel's. -/
def holds {α : Type} (role : Option (Cid × α)) (cid : Cid) : Bool := role.any fun role => role.1 = cid

/-! ### Cover art -/

def connectCoverArt (link : Link δ Q A) (psm : UInt16) (out : Outbox) : Link δ Q A × Outbox :=
  match Psm.new psm with
  | .error _ => (link, out)
  | .ok psm =>
    match link.mux.connectWith psm .enhancedRetransmission with
    | (mux, .ok (cid, events)) =>
      ({ link with mux, art := some (cid, .dialling) }, out.queueSignalling events)
    | (mux, .error _) => ({ link with mux }, out)

/-- Bring the peer's image server up, unless that is under way or given up. -/
def openCoverArt (link : Link δ Q A) (out : Outbox) : Link δ Q A × Outbox :=
  if link.art.isSome || link.artSdp.isSome then (link, out)
  else if link.artStrikes ≥ artStrikesLimit then (link, out)
  else
    match link.artPsm with
    | some psm => link.connectCoverArt psm out
    | none =>
      match link.mux.connect .sdp with
      | (mux, .ok (cid, events)) =>
        ({ link with mux, artSdp := some (cid, clients.query) }, out.queueSignalling events)
      | (mux, .error _) => ({ link with mux }, out)

/-- An answer to where the peer serves images from. -/
def onCoverArtSdp (link : Link δ Q A) (payload : Bytes) (out : Outbox) : Link δ Q A × Outbox :=
  match link.artSdp with
  | none => (link, out)
  | some (cid, query) =>
    match clients.feed query payload with
    | (query, .ok false) =>
      ({ link with artSdp := some (cid, query) },
        match clients.nextRequest query with
        | some request => out.reply cid request
        | none => out)
    | (_, .error _) => ({ link with artSdp := none }, out)
    | (query, .ok true) =>
      let (mux, disconnected) := link.mux.disconnect cid
      let link := { link with mux, artSdp := none }
      let out := out.queueSignalling (disconnected.toOption.getD [])
      match clients.coverArtPsm query with
      | none => (link, out)
      | some psm => { link with artPsm := some psm }.connectCoverArt psm out

/-! ### AVDTP -/

def onSinkEvent (cid : Cid) (state : Link δ Q A × Outbox) (event : SinkEvent) :
    Link δ Q A × Outbox :=
  let (link, out) := state
  match event with
  | .reply message | .command message => (link, out.reply cid message.encode)
  | .configured codec format _ =>
    let depacketizer := clients.depacketizer codec format.sampleRate
    match link.audio with
    | .open was old tx =>
      if was = format then
        ({ link with
            audio := .open format (clients.reconfigured old codec format.sampleRate) tx }, out)
      else
        -- the channel of the session that is open goes with it
        ({ link with audio := .configured format depacketizer }, out)
    | _ => ({ link with audio := .configured format depacketizer }, out)
  | .started =>
    let out := { out with started := true }
    match link.audio with
    | .closed => (link, out)
    | _ =>
      let (link, out) :=
        match link.audio with
        | .configured format depacketizer =>
          let out := (out.emit (.audio format)).emit .sourceInfo
          ({ link with audio := .open format depacketizer .new },
            if link.control then out.emit .controlSurface else out)
        | _ => (link, out)
      if link.avctp.isNone then
        match link.mux.connect .avctp with
        | (mux, .ok (_, events)) => ({ link with mux }, out.queueSignalling events)
        | (mux, .error _) => ({ link with mux }, out)
      else (link, out)
  | .closed =>
    ({ link with audio := .closed }, if link.audio.isOpen then out.emit .ended else out)
  | .suspendRefused | .opened | .suspended => (link, out)

def onAvdtp (link : Link δ Q A) (cid : Cid) (payload : Bytes) (out : Outbox) :
    Link δ Q A × Outbox :=
  match Message.decode payload with
  | .error _ =>
    (link, match Message.refusableHeader payload with
      | some (transaction, signalId) =>
        out.reply cid (Message.generalReject transaction signalId)
      | none => out)
  | .ok msg =>
    let (sink, events) := link.sink.handle msg
    events.foldl (onSinkEvent clients cid) ({ link with sink }, out)

/-- A media packet.  The answer is whether the consumer of the frames has gone.
-/
def onMedia (link : Link δ Q A) (payload : Bytes) : Link δ Q A × Bool :=
  match link.audio with
  | .open format depacketizer tx =>
    match clients.push depacketizer payload with
    | (depacketizer, none) => ({ link with audio := .open format depacketizer tx }, false)
    | (depacketizer, some frame) =>
      match tx.send frame with
      | (_, .closed) => ({ link with audio := .closed }, true)
      | (tx, _) => ({ link with audio := .open format depacketizer tx }, false)
  | _ => (link, false)

/-- Pause the phone's player, which its own screen shows. -/
def pausePlayer (link : Link δ Q A) (out : Outbox) : Outbox :=
  match link.avctp.bind fun cid => link.mux.channels cid.raw with
  | some channel =>
    { out with direct := out.direct ++ clients.pause.map fun body => ⟨channel.remoteCid, body⟩ }
  | none => out

/-- Ask for the phone's stream to be suspended, which stops the radio. -/
def suspendStream (link : Link δ Q A) (out : Outbox) : Link δ Q A × Outbox :=
  match link.avdtpSignaling with
  | none => (link, out)
  | some cid =>
    match link.sink.suspendPeer with
    | (sink, some (.command command)) =>
      let (mux, sent) := link.mux.send cid command.encode
      ({ link with sink, mux },
        { out with direct := out.direct ++ Outbox.pdus (sent.toOption.getD []) })
    | (sink, _) => ({ link with sink }, out)

/-- Tell a phone that nobody listens to it any longer. -/
def pausePeer (link : Link δ Q A) (out : Outbox) : Link δ Q A × Outbox :=
  link.suspendStream (link.pausePlayer clients out)

/-- A media packet; once the consumer of its frames has gone, the phone is told
and the session is over. -/
def takeMedia (link : Link δ Q A) (payload : Bytes) (out : Outbox) : Link δ Q A × Outbox :=
  let (link, gone) := link.onMedia clients payload
  if gone then
    let (link, out) := link.pausePeer clients out
    (link, out.emit .ended)
  else (link, out)

/-! ### Events of the multiplexer -/

def takeRole (link : Link δ Q A) (cid : Cid) (psm : Psm) (advice : Advice A) (out : Outbox) :
    Link δ Q A × Outbox :=
  if psm = .avdtp then
    -- order is the only discriminator that the protocol offers
    if link.avdtpSignaling.isNone then ({ link with avdtpSignaling := some cid }, out)
    else ({ link with avdtpMedia := some cid }, out)
  else if psm = .avctp then
    let out := if link.audio.isOpen then out.emit .controlSurface else out
    { link with avctp := some cid, control := true }.openCoverArt clients
      { out with replies := out.replies ++ advice.replies }
  else (link, out)

/-- On a channel that we opened, ask the first question. -/
def askFirst (link : Link δ Q A) (cid : Cid) (out : Outbox) : Link δ Q A × Outbox :=
  if holds link.artSdp cid then
    (link, match link.artSdp.bind fun role => clients.nextRequest role.2 with
      | some request => out.reply cid request
      | none => out)
  else if holds link.art cid then
    -- only now is the receive MTU final
    let maxPacket := ((link.mux.channels cid.raw).map L2cap.Channel.localMtu).getD 0x0400
    let (session, request) := clients.session maxPacket
    ({ link with art := some (cid, .session session) },
      match request with
      | some request => out.reply cid request
      | none => out)
  else (link, out)

def onChannelOpen (link : Link δ Q A) (cid : Cid) (psm : Psm) (advice : Advice A) (out : Outbox) :
    Link δ Q A × Outbox :=
  let (link, out) := link.takeRole clients cid psm advice out
  link.askFirst clients cid out

def onChannelClosed (link : Link δ Q A) (cid : Cid) (out : Outbox) : Link δ Q A × Outbox :=
  if some cid = link.avdtpMedia then
    match link.audio with
    | .open format depacketizer _ =>
      ({ link with avdtpMedia := none, audio := .configured format depacketizer },
        out.emit .ended)
    | _ => ({ link with avdtpMedia := none }, out)
  else if some cid = link.avdtpSignaling then ({ link with avdtpSignaling := none }, out)
  else if some cid = link.avctp then ({ link with avctp := none }, out)
  else if holds link.artSdp cid then ({ link with artSdp := none }, out)
  else if holds link.art cid then
    let midFetch := link.art.any fun role =>
      match role.2 with
      | .session session => clients.fetching session
      | .dialling => false
    ({ link with
        art := none
        artStrikes := if midFetch then link.artStrikes + 1 else link.artStrikes }, out)
  else (link, out)

/-- What a channel's data is given to. -/
inductive Handler where
  | artQuery
  | artImages
  | sdpServer
  | media
  | signaling
  | control
  deriving DecidableEq, Repr

def handlerOf (link : Link δ Q A) (cid : Cid) (psm : Psm) : Option Handler :=
  if holds link.artSdp cid then some .artQuery
  else if holds link.art cid then some .artImages
  else if psm = .sdp then some .sdpServer
  else if psm = .avdtp then if some cid = link.avdtpMedia then some .media else some .signaling
  else if psm = .avctp then some .control
  else none

def heed (link : Link δ Q A) (advice : Advice A) (out : Outbox) : Link δ Q A × Outbox :=
  ({ link with art := link.art.map fun role => (role.1, match role.2 with
      | .session session => .session (advice.session session)
      | .dialling => .dialling) },
    { out with replies := out.replies ++ advice.replies })

def onData (link : Link δ Q A) (cid : Cid) (psm : Psm) (payload : Bytes) (advice : Advice A)
    (out : Outbox) : Link δ Q A × Outbox :=
  match link.handlerOf cid psm with
  | some .artQuery => link.onCoverArtSdp clients payload out
  | some .artImages => link.heed advice out
  | some .sdpServer => (link, out.reply cid (clients.sdp payload))
  | some .media => link.takeMedia clients payload out
  | some .signaling => link.onAvdtp clients cid payload out
  | some .control =>
    let (link, out) := link.heed advice out
    if advice.opensArt then link.openCoverArt clients out else (link, out)
  | none => (link, out)

def onEvent (link : Link δ Q A) (event : L2capEvent) (advice : Advice A) (out : Outbox) :
    Link δ Q A × Outbox :=
  match event with
  | .send pdu => (link, { out with signalling := out.signalling ++ [pdu] })
  | .channelOpen cid psm _ => link.onChannelOpen clients cid psm advice out
  | .channelClosed cid _ => link.onChannelClosed clients cid out
  | .data cid psm payload => link.onData clients cid psm payload advice out
  | .connectFailed .. => (link, out)

def flush (link : Link δ Q A) (out : Outbox) : Link δ Q A × List L2capPdu :=
  out.replies.foldl (fun (state : Link δ Q A × List L2capPdu) reply =>
    let (mux, sent) := state.1.mux.send reply.1 reply.2
    ({ state.1 with mux }, state.2 ++ Outbox.pdus (sent.toOption.getD [])))
    (link, out.direct ++ out.signalling)

/-- The multiplexer's events, each with what the handlers make of it. -/
def dispatch (link : Link δ Q A) (events : List (L2capEvent × Advice A)) :
    Link δ Q A × List L2capPdu × Outbox :=
  let (link, out) := events.foldl (fun state event =>
    state.1.onEvent clients event.1 event.2 state.2) (link, .empty)
  let (link, pdus) := link.flush out
  (link, pdus, out)

end Link

end Castaway.Bluetooth
