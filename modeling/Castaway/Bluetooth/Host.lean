import Castaway.AirPlay.Negotiation
import Castaway.Bluetooth.Acl
import Castaway.Hci.Commands

/-!
# The host controller

The commands that bring a controller up go out one after another, each when
something has come of the one before: a completion, a status, or the watchdog's
giving up.  Connections and pairings are answered meanwhile.  Every command
takes a slot of the controller's window, and waits there if none is free.

Only the actions of an event reach the ACL writer; those of a tick are written
to the transport and nothing else.
-/

namespace Castaway.Bluetooth

open Castaway.AirPlay (Text)
open Castaway.Hci (BdAddr Command CommandCredits ConnectionHandle LinkKey OpCode ScanEnable)

/-! ## Events -/

inductive LinkType where
  | sco
  | acl
  | eSco
  | other (raw : UInt8)
  deriving DecidableEq

/-- A controller event.  Those that nothing comes of are `other`. -/
inductive Event where
  | connectionRequest (addr : BdAddr) (linkType : LinkType)
  | connectionComplete (status : UInt8) (handle : ConnectionHandle) (addr : BdAddr)
  | disconnectionComplete (handle : ConnectionHandle) (reason : UInt8)
  | authenticationComplete (status : UInt8) (handle : ConnectionHandle)
  | encryptionChange (status : UInt8) (handle : ConnectionHandle) (enabled : Bool)
  | remoteNameRequestComplete (status : UInt8) (addr : BdAddr) (name : Text)
  | commandComplete (allowedPackets : UInt8) (opcode : OpCode) (params : Bytes)
  | commandStatus (status allowedPackets : UInt8) (opcode : OpCode)
  | numberOfCompletedPackets (pairs : List (ConnectionHandle × UInt16))
  | pinCodeRequest (addr : BdAddr)
  | linkKeyRequest (addr : BdAddr)
  | linkKeyNotification (addr : BdAddr) (key : LinkKey)
  | ioCapabilityRequest (addr : BdAddr)
  | userConfirmationRequest (addr : BdAddr)
  | other
  deriving DecidableEq

/-- The command that an event answers, and the size of the window that it
reports. -/
def Event.answer? : Event → Option (OpCode × UInt8)
  | commandComplete allowedPackets opcode _ => some (opcode, allowedPackets)
  | commandStatus _ allowedPackets opcode => some (opcode, allowedPackets)
  | _ => none

/-- The controller's buffers. -/
structure BufferSize where
  aclMaxLen : UInt16
  totalPackets : UInt16
  deriving DecidableEq

/-- The answer to a reading of the buffers, unless it is a failure or cut short.
-/
def BufferSize.parse : Bytes → Option BufferSize
  | status :: l₁ :: l₂ :: _ :: t₁ :: t₂ :: _ =>
    if status = 0 then
      some ⟨UInt16.ofNat (leNat [l₁, l₂]), UInt16.ofNat (leNat [t₁, t₂])⟩
    else none
  | _ => none

def parseBdAddr : Bytes → Option BdAddr
  | [] => none
  | status :: wire => if status = 0 then BdAddr.fromWire wire else none

/-! ## The host -/

inductive HostState where
  | down
  | initializing
  | ready
  deriving DecidableEq

structure HostConfig where
  name : Text
  classOfDevice : UInt32 := 0x240414
  discoverable : Bool := true

inductive HostAction where
  | send (command : Command)
  | ready (address : BdAddr) (aclCredits aclMtu : UInt16)
  | linkUp (handle : ConnectionHandle) (peer : BdAddr)
  | linkDown (handle : ConnectionHandle) (peer : BdAddr) (reason : UInt8)
  | peerName (peer : BdAddr) (name : Text)
  | paired (peer : BdAddr) (key : LinkKey)
  | unpaired (peer : BdAddr)
  | credits (handle : ConnectionHandle) (count : UInt16)
  deriving DecidableEq

structure HostController where
  config : HostConfig
  state : HostState := .down
  /-- Commands still to send, each when the one before it is done. -/
  pending : List Command := []
  address : BdAddr := .zero
  aclCredits : UInt16 := 1
  aclMtu : UInt16 := 339
  linkKeys : BdAddr → Option LinkKey := fun _ => none
  /-- The peers of the live connections, by their raw handles. -/
  connections : UInt16 → Option BdAddr := fun _ => none
  commands : CommandCredits := .new
  /-- How long the oldest command in flight has been there, in nanoseconds. -/
  unansweredFor : ℕ := 0

namespace HostController

/-- Five seconds. -/
def commandTimeout : ℕ := 5 * 10 ^ 9

/-- The longest `Duration`. -/
def durationMax : ℕ := 2 ^ 64 * 10 ^ 9 - 1

def serviceClasses : List UInt16 := [0x110B, 0x110C, 0x110D, 0x110E, 0x110F]

def eir (config : HostConfig) : Bytes :=
  Hci.eirName (Hci.eirPush [] 0x03 (serviceClasses.flatMap putU16Le)) config.name

def idleScan (config : HostConfig) : ScanEnable :=
  if config.discoverable then .discoverableAndConnectable else .connectableOnly

def bringUp (config : HostConfig) : List Command :=
  [.readLocalVersion, .readBufferSize, .readBdAddr, .setEventMask 0xFFFFFFFFFFFFFFFF,
    .writeClassOfDevice config.classOfDevice, .writeLocalName config.name,
    .writeExtendedInquiryResponse false (eir config), .writeSimplePairingMode true,
    .writeInquiryScanActivity 0x0400 0x0060, .writeInquiryScanType true,
    .writePageScanType true, .writeScanEnable (idleScan config)]

/-- Take a slot for every command, and hold back what does not fit. -/
def paceFrom : CommandCredits → List HostAction → CommandCredits × List HostAction
  | credits, [] => (credits, [])
  | credits, .send command :: actions =>
    let offered := credits.submit command
    let paced := paceFrom offered.1 actions
    (paced.1, offered.2.toList.map .send ++ paced.2)
  | credits, action :: actions =>
    let paced := paceFrom credits actions
    (paced.1, action :: paced.2)

def pace (host : HostController) (actions : List HostAction) : HostController × List HostAction :=
  let paced := paceFrom host.commands actions
  ({ host with commands := paced.1 }, paced.2)

def start (host : HostController) : HostController × List HostAction :=
  { host with state := .initializing, pending := bringUp host.config }.pace [.send .reset]

/-- The next command of the sequence, or the end of it. -/
def advanceBringUp (host : HostController) : HostController × List HostAction :=
  match host.pending with
  | [] => ({ host with state := .ready }, [.ready host.address host.aclCredits host.aclMtu])
  | next :: pending => ({ host with pending }, [.send next])

def informed (host : HostController) (opcode : OpCode) (params : Bytes) : HostController :=
  if opcode = ⟨0x1005⟩ then
    match BufferSize.parse params with
    | some size =>
      { host with aclMtu := max size.aclMaxLen 1, aclCredits := max size.totalPackets 1 }
    | none => host
  else if opcode = ⟨0x1009⟩ then
    match parseBdAddr params with
    | some address => { host with address }
    | none => host
  else host

def onCommandComplete (host : HostController) (opcode : OpCode) (params : Bytes) :
    HostController × List HostAction :=
  let host := host.informed opcode params
  if host.state ≠ .initializing then (host, []) else host.advanceBringUp

def handle (host : HostController) : Event → HostController × List HostAction
  | .commandComplete _ opcode params => host.onCommandComplete opcode params
  | .commandStatus _ _ _ =>
    -- a status instead of a completion: the sequence goes on regardless
    if host.state = .initializing then host.advanceBringUp else (host, [])
  | .connectionRequest addr linkType =>
    if linkType = .acl then (host, [.send (.acceptConnectionRequest addr)])
    else (host, [.send (.rejectConnectionRequest addr 0x0D)])
  | .connectionComplete status handle addr =>
    if status = 0 then
      ({ host with connections := Function.update host.connections handle.raw (some addr) },
        [.linkUp handle addr, .send (.remoteNameRequest addr)])
    else (host, [])
  | .disconnectionComplete handle reason =>
    ({ host with connections := Function.update host.connections handle.raw none },
      [.linkDown handle ((host.connections handle.raw).getD .zero) reason])
  | .ioCapabilityRequest addr => (host, [.send (.ioCapabilityRequestReply addr)])
  | .userConfirmationRequest addr => (host, [.send (.userConfirmationRequestReply addr)])
  | .linkKeyRequest addr =>
    match host.linkKeys addr with
    | none => (host, [.send (.linkKeyRequestNegativeReply addr)])
    | some key => (host, [.send (.linkKeyRequestReply addr key)])
  | .linkKeyNotification addr key =>
    ({ host with linkKeys := Function.update host.linkKeys addr (some key) },
      [.paired addr key])
  | .pinCodeRequest addr => (host, [.send (.pinCodeRequestNegativeReply addr)])
  | .remoteNameRequestComplete status addr name =>
    if status = 0 ∧ name.trim ≠ [] then (host, [.peerName addr name.trim]) else (host, [])
  | .authenticationComplete status handle =>
    if status = 0 then (host, [])
    else
      -- a key that no longer serves is forgotten
      match (host.connections handle.raw).filter fun addr => (host.linkKeys addr).isSome with
      | some addr =>
        ({ host with linkKeys := Function.update host.linkKeys addr none }, [.unpaired addr])
      | none => (host, [])
  | .encryptionChange .. => (host, [])
  | .numberOfCompletedPackets pairs => (host, pairs.map fun p => .credits p.1 p.2)
  | .other => (host, [])

/-- An answer sets the window, which lets out what waits. -/
def answered (host : HostController) (opcode : OpCode) (allowedPackets : UInt8) :
    HostController × List HostAction :=
  let released := host.commands.answered opcode allowedPackets
  ({ host with unansweredFor := 0, commands := released.1 }, released.2.map .send)

def onEvent (host : HostController) (event : Event) : HostController × List HostAction :=
  let opened :=
    match event.answer? with
    | some (opcode, allowedPackets) => host.answered opcode allowedPackets
    | none => (host, [])
  let fresh := opened.1.handle event
  let paced := fresh.1.pace fresh.2
  (paced.1, opened.2 ++ paced.2)

def abandon (host : HostController) : HostController × List HostAction :=
  let released := host.commands.abandonOldest
  let host := { host with unansweredFor := 0, commands := released.1 }
  if host.state = .initializing then
    let next := host.advanceBringUp
    let paced := next.1.pace next.2
    (paced.1, released.2.2.map .send ++ paced.2)
  else (host, released.2.2.map .send)

def tick (host : HostController) (elapsed : ℕ) : HostController × List HostAction :=
  if host.commands.inFlight = [] then ({ host with unansweredFor := 0 }, [])
  else
    let unansweredFor := min (host.unansweredFor + elapsed) durationMax
    if unansweredFor < commandTimeout then ({ host with unansweredFor }, [])
    else host.abandon

end HostController

/-! ## The adapter -/

inductive HostInput where
  | event (event : Event)
  | tick (elapsed : ℕ)
  deriving DecidableEq

def HostController.feed (host : HostController) : HostInput → HostController × List HostAction
  | .event event => host.onEvent event
  | .tick elapsed => host.tick elapsed

def HostAction.command? : HostAction → Option Command
  | send command => some command
  | _ => none

def HostAction.forWriter : HostAction → Option AclAction
  | ready _ aclCredits aclMtu => some (.configure aclCredits.toNat aclMtu.toNat)
  | credits handle count => some (.completed handle count.toNat)
  | linkUp handle _ => some (.linkUp handle)
  | linkDown handle _ _ => some (.linkDown handle)
  | send _ | peerName _ _ | paired _ _ | unpaired _ => none

/-- What the adapter has its writer do for the actions of an input. -/
def toWriter : HostInput → List HostAction → List AclAction
  | .event _, actions => actions.filterMap HostAction.forWriter
  | .tick _, _ => []

end Castaway.Bluetooth
