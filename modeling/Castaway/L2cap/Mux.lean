import Castaway.L2cap.Ertm
import Castaway.L2cap.Signaling

/-!
# The channel multiplexer

The state machine of `mux.rs` for one ACL link: connecting, configuring,
streaming and disconnecting channels, the response timers and the
retransmission engines.

The source's methods change the multiplexer in place.  Here a method takes it
and returns it, together with what the caller is told; a method that can fail
returns the state as the failure leaves it, and `andThen` is the `?` operator.
A hash map is a function to `Option`, and a loop over one takes the order in
which its keys come up as a list, since the source does not fix that order.
-/

namespace Castaway.L2cap

open Function

/-- Default MTU for basic mode when the peer proposes nothing. -/
def defaultMtu : UInt16 := 672

/-- The SDU ceiling an Enhanced Retransmission channel advertises. -/
def ertmMtu : UInt16 := 8192

/-- How many times we propose a configuration the peer calls unacceptable. -/
def maxConfigAttempts : ℕ := 4

/-- Bytes of framing a full-size I-frame adds to its payload. -/
def maxOverhead : UInt16 := 6

/-- Bit 0 of a configuration request's flags: more options follow in another
request. -/
def continuationFlag : UInt16 := 0x0001

/-- The response timeout. -/
def rtx : ℕ := ofMillis 4000

/-- How many times to resend before concluding the peer is not going to answer.
-/
def rtxRetries : ℕ := 2

/-- The extended response timeout, which replaces `rtx` once a peer answers
`Pending`. -/
def ertx : ℕ := ofMillis 60000

/-! ## Channels -/

inductive ChannelState where
  | waitConnectRsp
  | waitConfig (outgoingDone incomingDone : Bool)
  | open_
  | waitDisconnect
  deriving DecidableEq, Repr

def ChannelState.label : ChannelState → String
  | waitConnectRsp => "waiting for connection response"
  | waitConfig .. => "configuring"
  | open_ => "open"
  | waitDisconnect => "disconnecting"

/-- The retransmission parameters a channel has agreed so far. -/
structure ModeParameters where
  fcs : FcsType := .crc16
  sendMps : UInt16 := defaultMtu
  sendWindow : UInt8 := defaultTxWindow
  maxTransmit : UInt8 := defaultMaxTransmit
  retransmissionTimeout : ℕ := defaultRetransmissionTimeout
  monitorTimeout : ℕ := defaultMonitorTimeout
  deriving DecidableEq

/-- One L2CAP channel.  Each side allocates its own identifier for it. -/
structure Channel where
  localCid : Cid
  remoteCid : Cid
  psm : Psm
  state : ChannelState
  localMtu : UInt16
  remoteMtu : UInt16 := defaultMtu
  mode : ChannelMode
  parameters : ModeParameters := {}
  /-- The identifier of the configuration request we have outstanding. -/
  configId : Option UInt8 := none
  /-- The mode that outstanding request proposed. -/
  proposedMode : ChannelMode
  /-- Whether we opened this channel. -/
  initiator : Bool
  /-- Configuration requests we have sent. -/
  configAttempts : ℕ := 0
  deriving DecidableEq

/-- The SDU ceiling a channel in `mode` may advertise, given the basic-mode one.
-/
def ceilingFor (mode : ChannelMode) (basicMtu : UInt16) : UInt16 :=
  if mode = .enhancedRetransmission then max ertmMtu basicMtu else basicMtu

/-- A duration as the milliseconds the wire field wants. -/
def ms (duration : ℕ) : UInt16 := .ofNat (min (duration / 1000000) 65535)

/-- The retransmission option of a request.  An absent one means basic mode. -/
def proposalOf (options : List ConfigOption) : RetransmissionConfig :=
  (options.findSome? fun
    | .retransmission config => some config
    | _ => none).getD .basic

def ChannelMode.adoptable (mode : ChannelMode) : Bool :=
  mode = .basic || mode = .enhancedRetransmission

namespace Channel

/-- Once our own direction is agreed the mode is no longer ours to move. -/
def settled (ch : Channel) : Bool :=
  match ch.state with
  | .waitConfig outgoingDone _ => outgoingDone
  | .open_ => true
  | _ => false

def proposal (ch : Channel) (receiveMps : UInt16) : List ConfigOption :=
  .mtu ch.localMtu ::
    if ch.mode = .enhancedRetransmission then
      [.retransmission (.ertm receiveMps), .fcs ch.parameters.fcs]
    else []

/-- Why the peer's options are not accepted: the result and the options of the
refusal, if they are not. -/
def refusal (ch : Channel) (receiveMps : UInt16) (options : List ConfigOption) :
    Option (ConfigResult × List ConfigOption) :=
  let unsupported := options.filter fun option => !option.isIgnorable
  let proposed := proposalOf options
  if unsupported ≠ [] then some (.unknownOptions, unsupported)
  else if options.any fun
      | .extendedWindowSize size => size ≠ 0
      | _ => false then
    some (.unacceptable, [.extendedWindowSize 0])
  else if proposed.mode ≠ ch.mode ∧ (!proposed.mode.adoptable || ch.settled || !ch.initiator) then
    -- Refuse by naming the mode we are running.
    some (.unacceptable,
      [.retransmission (if ch.mode = .enhancedRetransmission then .ertm receiveMps else .basic)])
  else none

/-- Read one option of the peer's request: the MTU is what it can receive. -/
def readRequestOption (ch : Channel) : ConfigOption → Channel
  | .mtu mtu => { ch with remoteMtu := mtu }
  | .fcs fcs => { ch with parameters := { ch.parameters with fcs } }
  | _ => ch

/-- Take over what the peer's request asks for. -/
def adopt (ch : Channel) (basicMtu receiveMps : UInt16) (options : List ConfigOption) : Channel :=
  let proposed := proposalOf options
  let ch := { ch with
    mode := proposed.mode
    localMtu := min ch.localMtu (ceilingFor proposed.mode basicMtu) }
  let ch := options.foldl readRequestOption ch
  if ch.mode = .enhancedRetransmission then
    { ch with parameters := { ch.parameters with sendMps := max (min proposed.mps receiveMps) 1 } }
  else ch

/-- The options that accept the peer's request, once adopted. -/
def acceptance (ch : Channel) (proposed : RetransmissionConfig) : List ConfigOption :=
  .mtu ch.remoteMtu ::
    if ch.mode = .enhancedRetransmission then
      [.retransmission
        { mode := .enhancedRetransmission
          txWindow := max (min proposed.txWindow defaultTxWindow) 1
          maxTransmit := proposed.maxTransmit
          retransmissionTimeoutMs := ms defaultRetransmissionTimeout
          monitorTimeoutMs := ms defaultMonitorTimeout
          mps := ch.parameters.sendMps },
        .fcs ch.parameters.fcs]
    else []

def setIncomingDone (ch : Channel) : Channel :=
  match ch.state with
  | .waitConfig outgoingDone _ => { ch with state := .waitConfig outgoingDone true }
  | _ => ch

def setOutgoingDone (ch : Channel) : Channel :=
  match ch.state with
  | .waitConfig _ incomingDone => { ch with state := .waitConfig true incomingDone }
  | _ => ch

/-- Whether a configuration response with this identifier answers a proposal we
have already withdrawn. -/
def isStale (ch : Channel) (id : UInt8) : Bool := ch.configId.any (· ≠ id)

/-- The mode a counter-proposal names, if it is one we can run. -/
def counterMode (options : List ConfigOption) : Option ChannelMode :=
  (options.findSome? fun
    | .retransmission config => some config.mode
    | _ => none).filter ChannelMode.adoptable

/-- Take over the peer's counter-proposal. -/
def adoptCounter (ch : Channel) (basicMtu : UInt16) (options : List ConfigOption) : Channel :=
  let ch :=
    match counterMode options with
    | some mode => { ch with mode, localMtu := min ch.localMtu (ceilingFor mode basicMtu) }
    | none => ch
  options.foldl (fun ch option =>
    match option with
    | .mtu mtu => { ch with localMtu := mtu }
    | _ => ch) ch

/-- Read one option of a response that says `Pending`, the one response whose
FCS option means anything. -/
def readPendingOption (ch : Channel) : ConfigOption → Channel
  | .fcs fcs => { ch with parameters := { ch.parameters with fcs } }
  | _ => ch

/-- Read one option of a response that accepts our proposal. -/
def readAnswerOption (ch : Channel) : ConfigOption → Channel
  | .retransmission config =>
    { ch with parameters := { ch.parameters with
        sendWindow := max (min config.txWindow defaultTxWindow) 1
        retransmissionTimeout :=
          if config.retransmissionTimeoutMs ≠ 0 then
            ofMillis config.retransmissionTimeoutMs.toNat
          else ch.parameters.retransmissionTimeout
        monitorTimeout :=
          if config.monitorTimeoutMs ≠ 0 then ofMillis config.monitorTimeoutMs.toNat
          else ch.parameters.monitorTimeout
        maxTransmit := max config.maxTransmit 1 } }
  | _ => ch

/-- A channel the peer asked for, to a service that listens in `mode`. -/
def listened (localCid sourceCid : Cid) (psm : Psm) (localMtu : UInt16) (mode : ChannelMode) :
    Channel :=
  { localCid
    remoteCid := sourceCid
    psm
    state := .waitConfig false false
    localMtu
    mode
    proposedMode := mode
    initiator := false }

/-- A channel we ask for, to run in `mode`. -/
def dialled (localCid : Cid) (psm : Psm) (localMtu : UInt16) (mode : ChannelMode) : Channel :=
  { localCid
    remoteCid := .null
    psm
    state := .waitConnectRsp
    localMtu
    mode
    proposedMode := mode
    initiator := true }

/-- The parameters of the retransmission engine of an open channel. -/
def ertmParameters (ch : Channel) : ErtmParameters where
  localCid := ch.localCid
  remoteCid := ch.remoteCid
  fcs := ch.parameters.fcs
  sendMps := ch.parameters.sendMps
  sendWindow := ch.parameters.sendWindow
  maxTransmit := ch.parameters.maxTransmit
  retransmissionTimeout := ch.parameters.retransmissionTimeout
  monitorTimeout := ch.parameters.monitorTimeout
  localMtu := ch.localMtu

end Channel

/-! ## The multiplexer -/

/-- What the multiplexer wants the caller to do, or tells it happened. -/
inductive L2capEvent where
  | send (pdu : L2capPdu)
  | channelOpen (cid : Cid) (psm : Psm) (peerMtu : UInt16)
  | channelClosed (cid : Cid) (psm : Psm)
  | data (cid : Cid) (psm : Psm) (payload : Bytes)
  | connectFailed (psm : Psm) (result : ConnectionResult)
  deriving DecidableEq

/-- What to do when a response timer runs out. -/
inductive OnExpiry where
  | resend
  | giveUp
  deriving DecidableEq, Repr

/-- A signaling request awaiting its response. -/
structure Outstanding where
  rawCid : UInt16
  request : Signal
  remaining : ℕ
  retries : ℕ
  onExpiry : OnExpiry
  deriving DecidableEq

/-- Multiplexes L2CAP channels over one ACL link. -/
structure Multiplexer where
  channels : UInt16 → Option Channel
  /-- Retransmission engines, keyed by local CID. -/
  ertm : UInt16 → Option Ertm
  listening : List (Psm × ChannelMode)
  nextCid : UInt16
  nextId : UInt8
  /-- Local CID awaiting a connection response, keyed by the signaling id we
  used. -/
  pending : UInt8 → Option UInt16
  /-- Requests sent and not yet answered, keyed by their signaling id. -/
  outstanding : UInt8 → Option Outstanding
  localMtu : UInt16

namespace Multiplexer

/-- A multiplexer with no channels, advertising `localMtu` as our receive size.
-/
def new (localMtu : UInt16) : Multiplexer where
  channels := fun _ => none
  ertm := fun _ => none
  listening := []
  nextCid := Cid.dynamicStart
  nextId := 1
  pending := fun _ => none
  outstanding := fun _ => none
  localMtu := localMtu

/-! ### Table updates -/

@[simps] def setChannel (m : Multiplexer) (raw : UInt16) (ch : Channel) : Multiplexer :=
  { m with channels := update m.channels raw (some ch) }

@[simps] def removeChannel (m : Multiplexer) (raw : UInt16) : Multiplexer :=
  { m with channels := update m.channels raw none }

@[simps] def setErtm (m : Multiplexer) (raw : UInt16) (ertm : Ertm) : Multiplexer :=
  { m with ertm := update m.ertm raw (some ertm) }

@[simps] def removeErtm (m : Multiplexer) (raw : UInt16) : Multiplexer :=
  { m with ertm := update m.ertm raw none }

@[simps] def setPending (m : Multiplexer) (id : UInt8) (raw : UInt16) : Multiplexer :=
  { m with pending := update m.pending id (some raw) }

@[simps] def removePending (m : Multiplexer) (id : UInt8) : Multiplexer :=
  { m with pending := update m.pending id none }

@[simps] def setOutstanding (m : Multiplexer) (id : UInt8) (out : Outstanding) : Multiplexer :=
  { m with outstanding := update m.outstanding id (some out) }

@[simps] def removeOutstanding (m : Multiplexer) (id : UInt8) : Multiplexer :=
  { m with outstanding := update m.outstanding id none }

/-- Forget every request still being timed for one channel. -/
@[simps] def retireTimers (m : Multiplexer) (raw : UInt16) : Multiplexer :=
  { m with outstanding := fun id => (m.outstanding id).filter fun out => out.rawCid ≠ raw }

/-- Note that we have sent `request` and are waiting for its answer. -/
def awaiting (m : Multiplexer) (id : UInt8) (raw : UInt16) (request : Signal) : Multiplexer :=
  m.setOutstanding id
    { rawCid := raw, request, remaining := rtx, retries := 0, onExpiry := .resend }

/-! ### Identifiers -/

/-- The search of `alloc_cid`: at most `tries` candidates, from `candidate` on.
-/
def findCid (channels : UInt16 → Option Channel) : ℕ → UInt16 → UInt16 × Except L2capError Cid
  | 0, candidate => (candidate, .error .outOfCids)
  | tries + 1, candidate =>
    let next := if candidate = 65535 then Cid.dynamicStart else candidate + 1
    if channels candidate = none then (next, .ok ⟨candidate⟩) else findCid channels tries next

def allocCid (m : Multiplexer) : Multiplexer × Except L2capError Cid :=
  let found := findCid m.channels (65535 - Cid.dynamicStart.toNat) m.nextCid
  ({ m with nextCid := found.1 }, found.2)

/-- Move past `nextId`.  Signaling ids wrap, and zero is reserved as invalid. -/
@[simps] def allocId (m : Multiplexer) : Multiplexer :=
  { m with nextId := if m.nextId = 255 then 1 else m.nextId + 1 }

/-! ### Signaling -/

def signal (sig : Signal) : Except L2capError L2capEvent := do
  let payload ← sig.encode
  .ok (.send ⟨.signaling, payload⟩)

def reply (m : Multiplexer) (sig : Signal) : Multiplexer × Except L2capError (List L2capEvent) :=
  (m, (signal sig).map fun event => [event])

/-- The SDU ceiling to advertise for a channel in `mode`. -/
def modeMtu (m : Multiplexer) (mode : ChannelMode) : UInt16 := ceilingFor mode m.localMtu

/-- The largest frame payload we can receive. -/
def receiveMps (m : Multiplexer) : UInt16 :=
  max (if m.localMtu < maxOverhead then 0 else m.localMtu - maxOverhead) 1

/-- A retransmission engine gave up: tell the peer and the caller, once. -/
def failChannel (m : Multiplexer) (cid : Cid) : Multiplexer × List L2capEvent :=
  let m := (m.removeErtm cid.raw).retireTimers cid.raw
  match m.channels cid.raw with
  | none => (m, [])
  | some ch =>
    let request := Signal.disconnectionRequest m.nextId ch.remoteCid ch.localCid
    ((m.removeChannel cid.raw).allocId,
      (signal request).toOption.toList ++ [.channelClosed ch.localCid ch.psm])

/-- Give up on a channel whose configuration will not converge. -/
def failConfiguration (m : Multiplexer) (cid : Cid) : Multiplexer × List L2capEvent :=
  let m := (m.removeErtm cid.raw).retireTimers cid.raw
  match m.channels cid.raw with
  | none => (m, [])
  | some ch =>
    let id := m.nextId
    let m := (m.removeChannel cid.raw).allocId
    let request := Signal.disconnectionRequest id ch.remoteCid ch.localCid
    match signal request with
    | .ok event =>
      (m.awaiting id cid.raw request, [event, .channelClosed ch.localCid ch.psm])
    | .error _ => (m, [.channelClosed ch.localCid ch.psm])

/-- Propose our side of the configuration, in whatever mode the channel is set
to. -/
def requestConfiguration (m : Multiplexer) (raw : UInt16) :
    Multiplexer × Except L2capError L2capEvent :=
  let configId := m.nextId
  -- A new proposal withdraws the previous one, and its timer with it.
  let m := m.allocId.retireTimers raw
  match m.channels raw with
  | none => (m, .error (.unknownChannel ⟨raw⟩))
  | some ch =>
    let ch := { ch with
      configId := some configId
      proposedMode := ch.mode
      configAttempts := saturatingSucc 255 ch.configAttempts }
    let m := m.setChannel raw ch
    let request := Signal.configurationRequest configId ch.remoteCid 0 (ch.proposal m.receiveMps)
    match signal request with
    | .ok event => (m.awaiting configId raw request, .ok event)
    | .error e => (m, .error e)

/-- Open the channel only once both directions are configured. -/
def promoteIfConfigured (m : Multiplexer) (raw : UInt16) : Multiplexer × List L2capEvent :=
  match m.channels raw with
  | none => (m, [])
  | some ch =>
    if ch.state = .waitConfig true true then
      let m := (m.setChannel raw { ch with state := .open_ }).retireTimers raw
      let m :=
        if ch.mode = .enhancedRetransmission then m.setErtm raw (.new ch.ertmParameters) else m
      (m, [.channelOpen ch.localCid ch.psm ch.remoteMtu])
    else (m, [])

/-! ### Commands of the peer -/

def onConnectionRequest (m : Multiplexer) (id : UInt8) (psm : Psm) (sourceCid : Cid) :
    Multiplexer × Except L2capError (List L2capEvent) :=
  match m.listening.find? fun entry => entry.1 = psm with
  | none => m.reply (.connectionResponse id .null sourceCid .psmNotSupported 0)
  | some (_, mode) =>
    andThen m.allocCid fun m localCid =>
      let m := m.setChannel localCid.raw
        (.listened localCid sourceCid psm (m.modeMtu mode) mode)
      andThen (m, signal (.connectionResponse id localCid sourceCid .success 0))
        fun m response =>
          -- Configure at once: two stacks each waiting to be asked is a hung channel.
          andThen (m.requestConfiguration localCid.raw) fun m request =>
            (m, .ok [response, request])

def onConnectionResponse (m : Multiplexer) (id : UInt8) (destCid sourceCid : Cid)
    (result : ConnectionResult) : Multiplexer × Except L2capError (List L2capEvent) :=
  if result = .pending then (m, .ok [])
  else
    let raw := (m.pending id).getD sourceCid.raw
    match m.channels raw with
    | none => (m, .ok [])
    | some ch =>
      if result ≠ .success then
        ((m.removeChannel raw).removePending id, .ok [.connectFailed ch.psm result])
      else
        let ch := { ch with remoteCid := destCid, state := .waitConfig false false }
        andThen (((m.setChannel raw ch).removePending id).requestConfiguration raw)
          fun m request => (m, .ok [request])

/-- The rest of `on_config_request`, for a request that is not refused. -/
def acceptConfigRequest (m : Multiplexer) (id : UInt8) (raw : UInt16) (ch : Channel)
    (continues : Bool) (options : List ConfigOption) :
    Multiplexer × Except L2capError (List L2capEvent) :=
  let ch := ch.adopt m.localMtu m.receiveMps options
  let ch := if continues then ch else ch.setIncomingDone
  let m := m.setChannel raw ch
  let response := Signal.configurationResponse id ch.remoteCid
    (if continues then continuationFlag else 0) .success (ch.acceptance (proposalOf options))
  andThen (m, signal response) fun m response =>
    if continues then (m, .ok [response])
    else
      let promoted := m.promoteIfConfigured raw
      if ch.mode ≠ ch.proposedMode then
        if ch.configAttempts ≥ maxConfigAttempts then
          let failed := promoted.1.failConfiguration ⟨raw⟩
          (failed.1, .ok failed.2)
        else
          andThen (promoted.1.requestConfiguration raw) fun m request =>
            (m, .ok (response :: promoted.2 ++ [request]))
      else (promoted.1, .ok (response :: promoted.2))

def onConfigRequest (m : Multiplexer) (id : UInt8) (destCid : Cid) (flags : UInt16)
    (options : List ConfigOption) : Multiplexer × Except L2capError (List L2capEvent) :=
  match m.channels destCid.raw with
  | none => m.reply (.configurationResponse id destCid 0 .rejected [])
  | some ch =>
    match ch.refusal m.receiveMps options with
    | some (result, answer) =>
      m.reply (.configurationResponse id ch.remoteCid 0 result answer)
    | none =>
      m.acceptConfigRequest id destCid.raw ch (flags &&& continuationFlag ≠ 0) options

def onConfigResponse (m : Multiplexer) (id : UInt8) (sourceCid : Cid) (result : ConfigResult)
    (options : List ConfigOption) (retired : Option Outstanding) :
    Multiplexer × Except L2capError (List L2capEvent) :=
  match m.channels sourceCid.raw with
  | none => (m, .ok [])
  | some ch =>
    if ch.isStale id then (m, .ok [])
    else
      match result with
      | .unacceptable =>
        let ch := ch.adoptCounter m.localMtu options
        let m := m.setChannel sourceCid.raw ch
        if ch.configAttempts ≥ maxConfigAttempts then
          let failed := m.failConfiguration sourceCid
          (failed.1, .ok failed.2)
        else
          andThen (m.requestConfiguration sourceCid.raw) fun m request => (m, .ok [request])
      | .pending =>
        let m := m.setChannel sourceCid.raw (options.foldl Channel.readPendingOption ch)
        -- The peer is still deciding: the request goes back, on the long timeout.
        match retired with
        | some out =>
          (m.setOutstanding id { out with remaining := ertx, onExpiry := .giveUp }, .ok [])
        | none => (m, .ok [])
      | .success =>
        let ch := options.foldl Channel.readAnswerOption ch
        let ch := { ch with configId := none }.setOutgoingDone
        let promoted := (m.setChannel sourceCid.raw ch).promoteIfConfigured sourceCid.raw
        (promoted.1, .ok promoted.2)
      | _ =>
        let failed := m.failConfiguration sourceCid
        (failed.1, .ok failed.2)

/-- The channel is gone, at the peer's word. -/
def closeChannel (m : Multiplexer) (raw : UInt16) : Multiplexer × List L2capEvent :=
  let m := (m.removeErtm raw).retireTimers raw
  match m.channels raw with
  | none => (m, [])
  | some ch => (m.removeChannel raw, [.channelClosed ch.localCid ch.psm])

def information (infoType : UInt16) : UInt16 × Bytes :=
  if infoType = 0x0002 then (0x0000, [0x28, 0, 0, 0])
  else if infoType = 0x0003 then (0x0000, [0x02, 0, 0, 0, 0, 0, 0, 0])
  else (0x0001, [])

/-- The handler of each command, for a multiplexer that has already retired the
request the command answers. -/
def dispatch (m : Multiplexer) (sig : Signal) (retired : Option Outstanding) :
    Multiplexer × Except L2capError (List L2capEvent) :=
  match sig with
  | .connectionRequest id psm sourceCid => m.onConnectionRequest id psm sourceCid
  | .connectionResponse id destCid sourceCid result _ =>
    m.onConnectionResponse id destCid sourceCid result
  | .configurationRequest id destCid flags options => m.onConfigRequest id destCid flags options
  | .configurationResponse id sourceCid _ result options =>
    m.onConfigResponse id sourceCid result options retired
  | .disconnectionRequest id destCid sourceCid =>
    andThen (m, signal (.disconnectionResponse id destCid sourceCid)) fun m response =>
      let closed := m.closeChannel destCid.raw
      (closed.1, .ok (response :: closed.2))
  | .disconnectionResponse _ _ sourceCid =>
    let closed := m.closeChannel sourceCid.raw
    (closed.1, .ok closed.2)
  | .echoRequest id data => m.reply (.echoResponse id data)
  | .informationRequest id infoType =>
    m.reply (.informationResponse id infoType (information infoType).1 (information infoType).2)
  | .commandReject id _ _ =>
    match retired with
    | none => (m, .ok [])
    | some out =>
      let failed := (m.removePending id).failChannel ⟨out.rawCid⟩
      (failed.1, .ok failed.2)
  | .echoResponse .. | .informationResponse .. => (m, .ok [])

/-- Act on one command.  Every answer retires the request it answers, here and
only here. -/
def handleSignal (m : Multiplexer) (sig : Signal) :
    Multiplexer × Except L2capError (List L2capEvent) :=
  match sig.answers with
  | some id => (m.removeOutstanding id).dispatch sig (m.outstanding id)
  | none => m.dispatch sig none

/-- Act on the commands of one frame, in order.  The first failure ends the
frame. -/
def handleSignals : List Signal → Multiplexer → List L2capEvent →
    Multiplexer × Except L2capError (List L2capEvent)
  | [], m, out => (m, .ok out)
  | sig :: rest, m, out =>
    andThen (m.handleSignal sig) fun m events => handleSignals rest m (out ++ events)

def rejectAll : List CommandRefusal → Except L2capError (List L2capEvent)
  | [] => .ok []
  | refusal :: rest => do
      let event ← signal (.commandReject refusal.id refusal.reason [])
      let events ← rejectAll rest
      .ok (event :: events)

/-! ### Data -/

def sendAll (remoteCid : Cid) (frames : List Bytes) : List L2capEvent :=
  frames.map fun frame => .send ⟨remoteCid, frame⟩

def handleData (m : Multiplexer) (pdu : L2capPdu) :
    Multiplexer × Except L2capError (List L2capEvent) :=
  match m.channels pdu.cid.raw with
  | none => (m, .error (.unknownChannel pdu.cid))
  | some ch =>
    if ch.state ≠ .open_ then
      (m, .error (.wrongState pdu.cid ch.state.label "receive data"))
    else
      match m.ertm pdu.cid.raw with
      | none => (m, .ok [.data ch.localCid ch.psm pdu.payload])
      | some ertm =>
        match ertm.receive pdu.payload with
        | .error e => (m, .error e)
        | .ok (ertm, out) =>
          let m := m.setErtm pdu.cid.raw ertm
          let events := sendAll ch.remoteCid out.frames ++
            out.sdus.map (L2capEvent.data ch.localCid ch.psm)
          if out.failed then
            let failed := m.failChannel ch.localCid
            (failed.1, .ok (events ++ failed.2))
          else (m, .ok events)

def handlePdu (m : Multiplexer) (pdu : L2capPdu) :
    Multiplexer × Except L2capError (List L2capEvent) :=
  if pdu.cid = .signaling then
    let frame := Signal.decodeFrame pdu.payload
    andThen (m, rejectAll frame.rejects) fun m out => handleSignals frame.signals m out
  else m.handleData pdu

/-! ### Calls of the owner -/

/-- Accept incoming connections to `psm`, running them in `mode`. -/
def listenWith (m : Multiplexer) (psm : Psm) (mode : ChannelMode) : Multiplexer :=
  if m.listening.any fun entry => entry.1 = psm then
    { m with listening := m.listening.map fun entry =>
        if entry.1 = psm then (entry.1, mode) else entry }
  else { m with listening := m.listening ++ [(psm, mode)] }

def listen (m : Multiplexer) (psm : Psm) : Multiplexer := m.listenWith psm .basic

/-- Open a channel to `psm` on the peer, running it in `mode`. -/
def connectWith (m : Multiplexer) (psm : Psm) (mode : ChannelMode) :
    Multiplexer × Except L2capError (Cid × List L2capEvent) :=
  andThen m.allocCid fun m localCid =>
    let id := m.nextId
    let m := m.allocId
    let m := m.setChannel localCid.raw (.dialled localCid psm (m.modeMtu mode) mode)
    let m := m.setPending id localCid.raw
    let request := Signal.connectionRequest id psm localCid
    andThen (m, signal request) fun m event =>
      (m.awaiting id localCid.raw request, .ok (localCid, [event]))

def connect (m : Multiplexer) (psm : Psm) :
    Multiplexer × Except L2capError (Cid × List L2capEvent) :=
  m.connectWith psm .basic

def send (m : Multiplexer) (cid : Cid) (payload : Bytes) :
    Multiplexer × Except L2capError (List L2capEvent) :=
  match m.channels cid.raw with
  | none => (m, .error (.unknownChannel cid))
  | some ch =>
    if ch.state ≠ .open_ then (m, .error (.wrongState cid ch.state.label "send"))
    else if payload.length > ch.remoteMtu.toNat then
      (m, .error (.tooLong payload.length ch.remoteMtu.toNat))
    else
      match m.ertm cid.raw with
      | none => (m, .ok [.send ⟨ch.remoteCid, payload⟩])
      | some ertm =>
        match ertm.send payload with
        | .error e => (m, .error e)
        | .ok (ertm, out) =>
          let m := m.setErtm cid.raw ertm
          let events := sendAll ch.remoteCid out.frames
          if out.failed then
            let failed := m.failChannel cid
            (failed.1, .ok (events ++ failed.2))
          else (m, .ok events)

def disconnect (m : Multiplexer) (cid : Cid) : Multiplexer × Except L2capError (List L2capEvent) :=
  let id := m.nextId
  let m := m.allocId
  match m.channels cid.raw with
  | none => (m, .error (.unknownChannel cid))
  | some ch =>
    let m := m.setChannel cid.raw { ch with state := .waitDisconnect }
    let m := (m.removeErtm cid.raw).retireTimers cid.raw
    let request := Signal.disconnectionRequest id ch.remoteCid ch.localCid
    andThen (m, signal request) fun m event =>
      (m.awaiting id cid.raw request, .ok [event])

/-- The ACL link went away: every channel on it is gone.  `order` lists the
channels as the table gives them up. -/
def linkDown (m : Multiplexer) (order : List UInt16) : Multiplexer × List L2capEvent :=
  ({ m with
      channels := fun _ => none
      ertm := fun _ => none
      pending := fun _ => none
      outstanding := fun _ => none },
    order.filterMap fun raw =>
      (m.channels raw).map fun ch => .channelClosed ch.localCid ch.psm)

/-! ### Time -/

/-- What `tick` has gathered so far: the events, and the channels to give up on.
-/
structure Ticking where
  events : List L2capEvent := []
  failed : List Cid := []

/-- Let `elapsed` pass on every response timer. -/
@[simps] def passTime (m : Multiplexer) (elapsed : ℕ) : Multiplexer :=
  { m with outstanding := fun id =>
      (m.outstanding id).map fun out => { out with remaining := out.remaining - elapsed } }

/-- Whether the timer of a request has run out. -/
def hasExpired (m : Multiplexer) (id : UInt8) : Bool :=
  (m.outstanding id).any fun out => out.remaining = 0

/-- Ask again, or give the channel up. -/
def expire (m : Multiplexer) (ticking : Ticking) (id : UInt8) : Multiplexer × Ticking :=
  match m.outstanding id with
  | none => (m, ticking)
  | some out =>
    if out.onExpiry = .resend ∧ out.retries < rtxRetries then
      (m.setOutstanding id { out with retries := out.retries + 1, remaining := rtx },
        { ticking with events := ticking.events ++ (signal out.request).toOption.toList })
    else
      ((m.removeOutstanding id).removePending id,
        { ticking with failed := ticking.failed ++ [⟨out.rawCid⟩] })

/-- Let `elapsed` pass for one retransmission engine. -/
def tickErtm (elapsed : ℕ) (m : Multiplexer) (ticking : Ticking) (raw : UInt16) :
    Multiplexer × Ticking :=
  match m.ertm raw with
  | none => (m, ticking)
  | some ertm =>
    let ticked := ertm.tick elapsed
    let m := m.setErtm raw ticked.1
    match m.channels raw with
    | none => (m, ticking)
    | some ch =>
      (m,
        { events := ticking.events ++ sendAll ch.remoteCid ticked.2.frames
          failed := ticking.failed ++ if ticked.2.failed then [ch.localCid] else [] })

def failEach : List Cid → Multiplexer → List L2capEvent → Multiplexer × List L2capEvent
  | [], m, events => (m, events)
  | cid :: rest, m, events =>
    let failed := m.failChannel cid
    failEach rest failed.1 (events ++ failed.2)

/-- Advance the response timers and every retransmission engine by `elapsed`.
`ids` and `raws` list the keys of the two tables in the order they come up. -/
def tick (m : Multiplexer) (ids : List UInt8) (raws : List UInt16) (elapsed : ℕ) :
    Multiplexer × List L2capEvent :=
  let m := m.passTime elapsed
  let expired := (ids.filter m.hasExpired).foldl (fun acc id => expire acc.1 acc.2 id) (m, {})
  let ticked := raws.foldl (fun acc raw => tickErtm elapsed acc.1 acc.2 raw) expired
  failEach ticked.2.failed ticked.1 ticked.2.events

end Multiplexer

end Castaway.L2cap
