import Castaway.Bluetooth.Avdtp

/-!
# The A2DP sink session

A pure responder but for two commands of its own: it reports its delay when a
stream that asked for it is configured, and it can ask the peer to suspend.  The
state carries what was negotiated inside each configured state.
-/

namespace Castaway.Bluetooth

open Castaway.Core (AudioCodec AudioFormat)

/-- What the session wants the caller to do, or tells it happened. -/
inductive SinkEvent where
  /-- Answer a command of the peer. -/
  | reply (message : Message)
  /-- Send a command of our own. -/
  | command (message : Message)
  | configured (codec : AudioCodec) (format : AudioFormat) (configuration : CodecCapability)
  | opened
  | started
  | suspended
  | suspendRefused
  | closed
  deriving DecidableEq, Repr

/-- What SET_CONFIGURATION established. -/
structure StreamContext where
  active : Seid
  /-- The sender's endpoint, if it named a legal one. -/
  peerEndpoint : Option Seid
  configuration : CodecCapability
  delayReportingConfigured : Bool
  deriving DecidableEq, Repr

inductive Stream where
  | idle
  | configured (context : StreamContext)
  | open (context : StreamContext)
  /-- `suspending` is the label of a SUSPEND we sent that has not been answered.
  -/
  | streaming (context : StreamContext) (suspending : Option UInt8)
  deriving DecidableEq, Repr

def Stream.context : Stream → Option StreamContext
  | .idle => none
  | .configured context | .open context | .streaming context _ => some context

/-- The state of the stream, without what it carries. -/
inductive StreamState where
  | idle
  | configured
  | open
  | streaming
  deriving DecidableEq, Repr

def Stream.state : Stream → StreamState
  | .idle => .idle
  | .configured _ => .configured
  | .open _ => .open
  | .streaming _ _ => .streaming

structure SinkSession where
  endpoints : List StreamEndpoint
  stream : Stream
  delayReporting : Bool
  reportedDelay : SinkDelay
  /-- The label of the next command that we send. -/
  nextTransaction : UInt8
  deriving DecidableEq, Repr

/-! ## Rejects -/

def badAcpSeid : UInt8 := 0x22
def sepInUse : UInt8 := 0x23
def unsupportedConfiguration : UInt8 := 0x29
def badState : UInt8 := 0x31
def invalidCodecParameter : UInt8 := 0xE2

def reject (msg : Message) (code : UInt8) : List SinkEvent := [.reply (msg.refuse [code])]

/-- The failing category first, as SET_CONFIGURATION and RECONFIGURE do. -/
def rejectConfig (msg : Message) (category code : UInt8) : List SinkEvent :=
  [.reply (msg.refuse [category, code])]

/-- The offending endpoint first, as START and SUSPEND do. -/
def rejectStream (msg : Message) (seid : Option Seid) (code : UInt8) : List SinkEvent :=
  [.reply (msg.refuse [(seid.map Seid.shifted).getD 0, code])]

/-- 300 ms. -/
def defaultSinkDelay : ℕ := 300000000

namespace SinkSession

/-- The endpoint of the capability at an index, numbered from one; none if there
is no such number. -/
def endpointAt (index : ℕ) (capability : CodecCapability) : Option StreamEndpoint :=
  if index + 1 ≤ 255 then
    match Seid.new (.ofNat (index + 1)) with
    | .ok seid => some ⟨seid, capability, false⟩
    | .error _ => none
  else none

/-- A session advertising `capabilities`, one endpoint each. -/
def new (capabilities : List CodecCapability) : SinkSession where
  endpoints := (capabilities.mapIdx endpointAt).reduceOption
  stream := .idle
  delayReporting := true
  reportedDelay := .fromDuration defaultSinkDelay
  nextTransaction := 0

def setReportedDelay (s : SinkSession) (delay : ℕ) : SinkSession :=
  { s with reportedDelay := .fromDuration delay }

def configuration (s : SinkSession) : Option CodecCapability :=
  s.stream.context.map StreamContext.configuration

/-- The endpoint that a wire byte names, if it is one of ours. -/
def endpoint? (s : SinkSession) (byte : UInt8) : Option StreamEndpoint :=
  match Seid.fromShifted byte with
  | .ok seid => s.endpoints.find? fun endpoint => endpoint.seid == seid
  | .error _ => none

/-- The label of the next command, four bits on the wire. -/
def following (transaction : UInt8) : UInt8 := (transaction + 1) % 16

def markEndpoint (s : SinkSession) (seid : Seid) (inUse : Bool) : SinkSession :=
  { s with
    endpoints := s.endpoints.map fun endpoint =>
      if endpoint.seid = seid then { endpoint with inUse } else endpoint }

/-! ## Commands that only read -/

def onDiscover (s : SinkSession) (msg : Message) : SinkSession × List SinkEvent :=
  (s, [.reply (msg.accept (s.endpoints.flatMap StreamEndpoint.discoverBytes))])

def onGetCapabilities (s : SinkSession) (msg : Message) (all : Bool) :
    SinkSession × List SinkEvent :=
  match msg.payload with
  | [] => (s, reject msg badAcpSeid)
  | byte :: _ =>
    match s.endpoint? byte with
    | none => (s, reject msg badAcpSeid)
    | some endpoint =>
      (s, [.reply (msg.accept (endpoint.capabilityBytes (all && s.delayReporting)))])

def onGetConfiguration (s : SinkSession) (msg : Message) : SinkSession × List SinkEvent :=
  match s.configuration with
  | none => (s, reject msg badState)
  | some configuration =>
    let codec := configuration.encode
    (s, [.reply (msg.accept ([0x07, .ofNat (min codec.length 255)] ++ codec))])

/-! ## Configuration -/

/-- A single configuration of the endpoint's own codec, with a format: what both
SET_CONFIGURATION and RECONFIGURE ask of a codec block.  The error is the code.
-/
def checkConfiguration (endpoint : StreamEndpoint) (list : Bytes) :
    Except UInt8 (CodecCapability × AudioFormat) :=
  match findCodecCapability list with
  | .error _ => .error unsupportedConfiguration
  | .ok capability =>
    if !capability.isConfiguration then .error invalidCodecParameter
    else if capability.audioCodec ≠ endpoint.capability.audioCodec then
      .error unsupportedConfiguration
    else
      match capability.format with
      | none => .error invalidCodecParameter
      | some format => .ok (capability, format)

/-- Tell the source how long we hold audio, if the stream negotiated it. -/
def delayReport (s : SinkSession) : SinkSession × List SinkEvent :=
  match s.stream.context with
  | none => (s, [])
  | some context =>
    if context.delayReportingConfigured then
      ({ s with nextTransaction := following s.nextTransaction },
        [.command (.delayReport s.nextTransaction context.active s.reportedDelay)])
    else (s, [])

def onSetConfiguration (s : SinkSession) (msg : Message) : SinkSession × List SinkEvent :=
  match msg.payload with
  | acp :: int :: list =>
    match s.endpoint? acp with
    | none => (s, rejectConfig msg 0 badAcpSeid)
    | some endpoint =>
      if s.stream ≠ .idle then (s, rejectConfig msg 0 sepInUse)
      else
        match checkConfiguration endpoint list with
        | .error code => (s, rejectConfig msg categoryMediaCodec code)
        | .ok (capability, format) =>
          let s := s.markEndpoint endpoint.seid true
          let s := { s with
            stream := .configured {
              active := endpoint.seid
              peerEndpoint := (Seid.fromShifted int).toOption
              configuration := capability
              delayReportingConfigured :=
                s.delayReporting && listsCategory list categoryDelayReporting } }
          let (s, report) := s.delayReport
          (s, [.reply (msg.accept []),
            .configured capability.audioCodec format capability] ++ report)
  | _ => (s, rejectConfig msg 0 badAcpSeid)

/-- The sender changes the codec block of an open stream. -/
def onReconfigure (s : SinkSession) (msg : Message) : SinkSession × List SinkEvent :=
  match s.stream with
  | .open context =>
    match msg.payload with
    | [] => (s, rejectConfig msg 0 badAcpSeid)
    | acp :: list =>
      match s.endpoint? acp with
      | none => (s, rejectConfig msg 0 badAcpSeid)
      | some endpoint =>
        if context.active ≠ endpoint.seid then (s, rejectConfig msg 0 badAcpSeid)
        else
          match checkConfiguration endpoint list with
          | .error code => (s, rejectConfig msg categoryMediaCodec code)
          | .ok (capability, format) =>
            ({ s with stream := .open { context with configuration := capability } },
              [.reply (msg.accept []),
                .configured capability.audioCodec format capability])
  | _ => (s, rejectConfig msg 0 badState)

/-! ## The stream -/

def onOpen (s : SinkSession) (msg : Message) : SinkSession × List SinkEvent :=
  match s.stream with
  | .configured context =>
    ({ s with stream := .open context }, [.reply (msg.accept []), .opened])
  | _ => (s, reject msg badState)

def onStart (s : SinkSession) (msg : Message) : SinkSession × List SinkEvent :=
  match s.stream with
  | .open context =>
    ({ s with stream := .streaming context none }, [.reply (msg.accept []), .started])
  | other => (s, rejectStream msg (other.context.map StreamContext.active) badState)

def onSuspend (s : SinkSession) (msg : Message) : SinkSession × List SinkEvent :=
  match s.stream with
  | .streaming context _ =>
    ({ s with stream := .open context }, [.reply (msg.accept []), .suspended])
  | other => (s, rejectStream msg (other.context.map StreamContext.active) badState)

/-- Drop back to idle and release the endpoint. -/
def teardown (s : SinkSession) : SinkSession :=
  match s.stream.context with
  | none => { s with stream := .idle }
  | some context => { s.markEndpoint context.active false with stream := .idle }

def onClose (s : SinkSession) (msg : Message) : SinkSession × List SinkEvent :=
  if s.stream = .idle then (s, reject msg badState)
  else (s.teardown, [.reply (msg.accept []), .closed])

/-- Never rejected. -/
def onAbort (s : SinkSession) (msg : Message) : SinkSession × List SinkEvent :=
  (s.teardown, .reply (msg.accept []) :: if s.stream = .idle then [] else [.closed])

def linkDown (s : SinkSession) : SinkSession × List SinkEvent :=
  if s.stream = .idle then (s, []) else (s.teardown, [.closed])

/-! ## Our own SUSPEND -/

def suspendPeer (s : SinkSession) : SinkSession × Option SinkEvent :=
  match s.stream with
  | .streaming context none =>
    match context.peerEndpoint with
    | none => (s, none)
    | some seid =>
      ({ s with
          nextTransaction := following s.nextTransaction
          stream := .streaming context (some s.nextTransaction) },
        some (.command (.suspend s.nextTransaction seid)))
  | _ => (s, none)

def onResponse (s : SinkSession) (msg : Message) : SinkSession × List SinkEvent :=
  match s.stream with
  | .streaming context (some label) =>
    if msg.signal ≠ .suspend ∨ label ≠ msg.transaction then (s, [])
    else if msg.messageType = .responseAccept then
      ({ s with stream := .open context }, [.suspended])
    else ({ s with stream := .streaming context none }, [.suspendRefused])
  | _ => (s, [])

def handle (s : SinkSession) (msg : Message) : SinkSession × List SinkEvent :=
  if msg.messageType ≠ .command then s.onResponse msg
  else
    match msg.signal with
    | .discover => s.onDiscover msg
    | .getCapabilities => s.onGetCapabilities msg false
    | .getAllCapabilities => s.onGetCapabilities msg true
    | .setConfiguration => s.onSetConfiguration msg
    | .getConfiguration => s.onGetConfiguration msg
    | .open => s.onOpen msg
    | .start => s.onStart msg
    | .suspend => s.onSuspend msg
    | .close => s.onClose msg
    | .abort => s.onAbort msg
    | .reconfigure => s.onReconfigure msg
    | .securityControl | .delayReport => (s, [.reply (msg.accept [])])

end SinkSession

end Castaway.Bluetooth
