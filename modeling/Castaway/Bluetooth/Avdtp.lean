import Castaway.Bluetooth.Codec

/-!
# AVDTP signalling

Messages, the identifiers of stream endpoints, and the endpoints a sink offers.
-/

namespace Castaway.Bluetooth

inductive Signal where
  | discover
  | getCapabilities
  | setConfiguration
  | getConfiguration
  | reconfigure
  | open
  | start
  | close
  | suspend
  | abort
  | securityControl
  | getAllCapabilities
  | delayReport
  deriving DecidableEq, Repr

namespace Signal

def id : Signal → UInt8
  | .discover => 0x01
  | .getCapabilities => 0x02
  | .setConfiguration => 0x03
  | .getConfiguration => 0x04
  | .reconfigure => 0x05
  | .open => 0x06
  | .start => 0x07
  | .close => 0x08
  | .suspend => 0x09
  | .abort => 0x0A
  | .securityControl => 0x0B
  | .getAllCapabilities => 0x0C
  | .delayReport => 0x0D

def all : List Signal :=
  [.discover, .getCapabilities, .setConfiguration, .getConfiguration, .reconfigure, .open, .start,
    .close, .suspend, .abort, .securityControl, .getAllCapabilities, .delayReport]

def fromId (id : UInt8) : Except AudioError Signal :=
  match all.find? fun signal => signal.id == id with
  | some signal => .ok signal
  | none => .error (.unknownSignal id)

end Signal

inductive MessageType where
  | command
  | generalReject
  | responseAccept
  | responseReject
  deriving DecidableEq, Repr

def MessageType.bits : MessageType → UInt8
  | .command => 0b00
  | .generalReject => 0b01
  | .responseAccept => 0b10
  | .responseReject => 0b11

def MessageType.fromBits (bits : UInt8) : MessageType :=
  if bits &&& 0b11 = 0b00 then .command
  else if bits &&& 0b11 = 0b01 then .generalReject
  else if bits &&& 0b11 = 0b10 then .responseAccept
  else .responseReject

/-- A stream endpoint identifier: six bits, and zero is reserved. -/
structure Seid where
  raw : UInt8
  legal : raw ≠ 0 ∧ raw ≤ 0x3E
  deriving DecidableEq, Repr

namespace Seid

def new (raw : UInt8) : Except AudioError Seid :=
  if h : raw ≠ 0 ∧ raw ≤ 0x3E then .ok ⟨raw, h⟩ else .error (.invalidSeid raw)

def shifted (seid : Seid) : UInt8 := seid.raw <<< 2

/-- The identifier in the top six bits of a wire byte. -/
def fromShifted (byte : UInt8) : Except AudioError Seid := new (byte >>> 2)

end Seid

/-! ## Messages -/

/-- One message, already reassembled. -/
structure Message where
  transaction : UInt8
  messageType : MessageType
  signal : Signal
  payload : Bytes
  deriving DecidableEq, Repr

/-- The latency a sink reports, in tenths of a millisecond. -/
structure SinkDelay where
  tenths : UInt16
  deriving DecidableEq, Repr

/-- A delay in nanoseconds, cut off at what the field holds. -/
def SinkDelay.fromDuration (nanos : ℕ) : SinkDelay := ⟨.ofNat (min (nanos / 100000) 65535)⟩

namespace Message

def command (transaction : UInt8) (signal : Signal) (payload : Bytes) : Message :=
  ⟨transaction, .command, signal, payload⟩

def accept (command : Message) (payload : Bytes) : Message :=
  ⟨command.transaction, .responseAccept, command.signal, payload⟩

/-- A reject response; where the error code stands in its payload depends on the
signal. -/
def refuse (command : Message) (payload : Bytes) : Message :=
  ⟨command.transaction, .responseReject, command.signal, payload⟩

def delayReport (transaction : UInt8) (seid : Seid) (delay : SinkDelay) : Message :=
  .command transaction .delayReport (seid.shifted :: beBytes 2 delay.tenths.toNat)

def suspend (transaction : UInt8) (seid : Seid) : Message :=
  .command transaction .suspend [seid.shifted]

def encode (message : Message) : Bytes :=
  ((message.transaction <<< 4) ||| message.messageType.bits) :: message.signal.id ::
    message.payload

def decode : Bytes → Except AudioError Message
  | header :: id :: payload =>
    if (header >>> 2) &&& 0b11 ≠ 0 then
      .error (.badMediaPacket "fragmented AVDTP signaling is not supported")
    else
      (Signal.fromId id).map fun signal =>
        ⟨header >>> 4, .fromBits header, signal, payload⟩
  | buf => .error (.truncated "avdtp header" 2 buf.length)

/-- The refusal of a signal that is not implemented: the header alone. -/
def generalReject (transaction signalId : UInt8) : Bytes :=
  [(transaction <<< 4) ||| MessageType.generalReject.bits, signalId]

/-- Whom to refuse a message that could not be read: only a command is owed a
refusal. -/
def refusableHeader : Bytes → Option (UInt8 × UInt8)
  | header :: signalId :: _ =>
    if MessageType.fromBits header = .command then some (header >>> 4, signalId) else none
  | _ => none

end Message

/-! ## Capability lists -/

def categoryMediaTransport : UInt8 := 0x01
def categoryMediaCodec : UInt8 := 0x07
def categoryDelayReporting : UInt8 := 0x08

/-- Whether the list names `category`, among its first entries. -/
def listsCategoryAmong (category : UInt8) : ℕ → Bytes → Bool
  | fuel + 1, found :: len :: rest =>
    if found = category then true
    else if rest.length < len.toNat then false
    else listsCategoryAmong category fuel (rest.drop len.toNat)
  | _, _ => false

/-- Whether a capability list names `category`.  A malformed list does not. -/
def listsCategory (buf : Bytes) (category : UInt8) : Bool :=
  listsCategoryAmong category buf.length buf

/-- The codec block among the first entries of the list. -/
def findCodecAmong : ℕ → Bytes → Except AudioError CodecCapability
  | fuel + 1, found :: len :: rest =>
    if rest.length < len.toNat then
      .error (.truncated "service capability" (2 + len.toNat) (rest.length + 2))
    else if found = categoryMediaCodec then CodecCapability.decode (rest.take len.toNat)
    else findCodecAmong fuel (rest.drop len.toNat)
  | _, buf => .error (.truncated "media codec capability in list" 2 buf.length)

/-- The codec block of a capability list.  An entry is at least two bytes long,
so there are no more entries than bytes. -/
def findCodecCapability (buf : Bytes) : Except AudioError CodecCapability :=
  findCodecAmong buf.length buf

/-! ## Endpoints -/

/-- One of our endpoints: a codec we are willing to receive. -/
structure StreamEndpoint where
  seid : Seid
  capability : CodecCapability
  /-- A sender has configured it. -/
  inUse : Bool
  deriving DecidableEq, Repr

namespace StreamEndpoint

def discoverBytes (endpoint : StreamEndpoint) : Bytes :=
  [endpoint.seid.shifted ||| (if endpoint.inUse then (0b10 : UInt8) else 0), 0b1000]

def capabilityBytes (endpoint : StreamEndpoint) (includeDelayReporting : Bool) : Bytes :=
  let codec := endpoint.capability.encode
  [categoryMediaTransport, 0, categoryMediaCodec, .ofNat (min codec.length 255)] ++ codec ++
    if includeDelayReporting then [categoryDelayReporting, 0] else []

end StreamEndpoint

end Castaway.Bluetooth
