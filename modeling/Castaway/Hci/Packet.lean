import Castaway.Lib.Bytes
import Castaway.Lib.Result

/-!
# HCI packets

The four packet types of `packet.rs`, with their encoder and their decoder.  A
handle is twelve bits, of which the top values are reserved, and shares its
field with two flags in the ACL header.

`decode_encode` is the round trip, and `length_of_decode` says that a frame that
decodes is as long as the encoding of what it decodes to.
-/

namespace Castaway.Hci

inductive HciError where
  | truncated (what : String) (need have_ : ℕ)
  | unknownPacketType (indicator : UInt8)
  | invalidField (field : String) (value : UInt16)
  | tooLong (what : String) (len max : ℕ)
  deriving DecidableEq, Repr

/-- The leading byte that tags a packet on a byte stream. -/
inductive PacketType where
  | command
  | aclData
  | scoData
  | event
  deriving DecidableEq, Repr

namespace PacketType

def indicator : PacketType → UInt8
  | command => 0x01
  | aclData => 0x02
  | scoData => 0x03
  | event => 0x04

def fromIndicator (byte : UInt8) : Except HciError PacketType :=
  if byte = 0x01 then .ok command
  else if byte = 0x02 then .ok aclData
  else if byte = 0x03 then .ok scoData
  else if byte = 0x04 then .ok event
  else .error (.unknownPacketType byte)

@[simp] theorem fromIndicator_indicator (kind : PacketType) :
    fromIndicator kind.indicator = .ok kind := by
  cases kind <;> rfl

theorem indicator_of_fromIndicator {byte : UInt8} {kind : PacketType}
    (h : fromIndicator byte = .ok kind) : byte = kind.indicator := by
  unfold fromIndicator at h
  split at h
  next hbyte => cases h; exact hbyte
  split at h
  next hbyte => cases h; exact hbyte
  split at h
  next hbyte => cases h; exact hbyte
  split at h
  next hbyte => cases h; exact hbyte
  next => cases h

end PacketType

/-! ## Fields -/

/-- A connection handle, at most twelve bits and below the reserved values. -/
structure ConnectionHandle where
  raw : UInt16
  le_max : raw ≤ 0x0EFF
  deriving DecidableEq

def ConnectionHandle.new (raw : UInt16) : Except HciError ConnectionHandle :=
  if h : raw ≤ 0x0EFF then .ok ⟨raw, h⟩ else .error (.invalidField "connection handle" raw)

theorem ConnectionHandle.new_raw (handle : ConnectionHandle) : new handle.raw = .ok handle :=
  dif_pos handle.le_max

theorem ConnectionHandle.and_mask (handle : ConnectionHandle) :
    handle.raw &&& 0x0FFF = handle.raw := by
  have hmax : handle.raw.toNat ≤ 3839 := handle.le_max
  apply UInt16.toNat_inj.mp
  have hmask : (handle.raw &&& 0x0FFF).toNat = handle.raw.toNat % 4096 := by
    rw [UInt16.toNat_and]
    exact Nat.and_two_pow_sub_one_eq_mod handle.raw.toNat 12
  omega

/-- Where an ACL fragment sits in its L2CAP PDU. -/
inductive PacketBoundary where
  | firstNonFlushable
  | continuing
  | firstFlushable
  | complete
  deriving DecidableEq, Repr

namespace PacketBoundary

def bits : PacketBoundary → UInt16
  | firstNonFlushable => 0b00
  | continuing => 0b01
  | firstFlushable => 0b10
  | complete => 0b11

def fromBits (bits : UInt16) : PacketBoundary :=
  if bits &&& 0b11 = 0b00 then firstNonFlushable
  else if bits &&& 0b11 = 0b01 then continuing
  else if bits &&& 0b11 = 0b10 then firstFlushable
  else complete

end PacketBoundary

inductive Broadcast where
  | pointToPoint
  | activePeripheral
  | parkedPeripheral
  deriving DecidableEq, Repr

namespace Broadcast

def bits : Broadcast → UInt16
  | pointToPoint => 0b00
  | activePeripheral => 0b01
  | parkedPeripheral => 0b10

def fromBits (bits : UInt16) : Broadcast :=
  if bits &&& 0b11 = 0b01 then activePeripheral
  else if bits &&& 0b11 = 0b10 then parkedPeripheral
  else pointToPoint

end Broadcast

/-! ## Packets -/

/-- One ACL data packet: a fragment of an L2CAP PDU. -/
structure AclPacket where
  handle : ConnectionHandle
  boundary : PacketBoundary
  broadcast : Broadcast
  data : Bytes
  deriving DecidableEq

namespace AclPacket

def maxData : ℕ := 65535

def header (acl : AclPacket) : UInt16 :=
  acl.handle.raw ||| (acl.boundary.bits <<< 12) ||| (acl.broadcast.bits <<< 14)

end AclPacket

/-- A 16-bit command opcode. -/
structure OpCode where
  raw : UInt16
  deriving DecidableEq, Repr

inductive HciPacket where
  | command (opcode : OpCode) (params : Bytes)
  | event (code : UInt8) (params : Bytes)
  | acl (fragment : AclPacket)
  | sco (handle : ConnectionHandle) (data : Bytes)
  deriving DecidableEq

namespace HciPacket

def packetType : HciPacket → PacketType
  | command .. => .command
  | event .. => .event
  | acl .. => .aclData
  | sco .. => .scoData

def putLen (len : ℕ) : UInt8 := .ofNat (min len 255)

def encode (packet : HciPacket) : Except HciError Bytes :=
  match packet with
  | command opcode params =>
    if params.length > 255 then .error (.tooLong "command parameters" params.length 255)
    else .ok (packet.packetType.indicator ::
      (putU16Le opcode.raw ++ putLen params.length :: params))
  | event code params =>
    if params.length > 255 then .error (.tooLong "event parameters" params.length 255)
    else .ok (packet.packetType.indicator :: code :: putLen params.length :: params)
  | acl fragment =>
    if fragment.data.length > AclPacket.maxData then
      .error (.tooLong "acl payload" fragment.data.length AclPacket.maxData)
    else
      .ok (packet.packetType.indicator :: (putU16Le fragment.header ++
        putU16Le (.ofNat (min fragment.data.length 65535)) ++ fragment.data))
  | sco handle data =>
    if data.length > 255 then .error (.tooLong "sco payload" data.length 255)
    else .ok (packet.packetType.indicator :: (putU16Le handle.raw ++ putLen data.length :: data))

/-- Take exactly `len` bytes.  A longer body is cut, since USB transfers are
padded. -/
def exact (buf : Bytes) (len : ℕ) (what : String) : Except HciError Bytes :=
  if buf.length < len then .error (.truncated what len buf.length) else .ok (buf.take len)

def decodeBody (kind : PacketType) (body : Bytes) : Except HciError HciPacket :=
  match kind with
  | .command =>
    match body with
    | h₀ :: h₁ :: h₂ :: rest => do
        let params ← exact rest h₂.toNat "command parameters"
        .ok (command ⟨getU16Le h₀ h₁⟩ params)
    | _ => .error (.truncated "command header" 3 body.length)
  | .event =>
    match body with
    | h₀ :: h₁ :: rest => do
        let params ← exact rest h₁.toNat "event parameters"
        .ok (event h₀ params)
    | _ => .error (.truncated "event header" 2 body.length)
  | .aclData =>
    match body with
    | h₀ :: h₁ :: h₂ :: h₃ :: rest => do
        let raw := getU16Le h₀ h₁
        let handle ← ConnectionHandle.new (raw &&& 0x0FFF)
        let data ← exact rest (getU16Le h₂ h₃).toNat "acl payload"
        .ok (acl ⟨handle, .fromBits (raw >>> 12), .fromBits (raw >>> 14), data⟩)
    | _ => .error (.truncated "acl header" 4 body.length)
  | .scoData =>
    match body with
    | h₀ :: h₁ :: h₂ :: rest => do
        let raw := getU16Le h₀ h₁
        let handle ← ConnectionHandle.new (raw &&& 0x0FFF)
        let data ← exact rest h₂.toNat "sco payload"
        .ok (sco handle data)
    | _ => .error (.truncated "sco header" 3 body.length)

/-- Decode a packet that still carries its indicator byte. -/
def decode (bytes : Bytes) : Except HciError HciPacket :=
  match bytes with
  | [] => .error (.truncated "hci packet" 1 0)
  | indicator :: rest => do
      let kind ← PacketType.fromIndicator indicator
      decodeBody kind rest

end HciPacket

/-! ## The ACL header -/

namespace AclPacket

theorem bits_boundary_lt (boundary : PacketBoundary) : boundary.bits.toNat < 4 := by
  cases boundary <;> decide

theorem bits_broadcast_lt (broadcast : Broadcast) : broadcast.bits.toNat < 4 := by
  cases broadcast <;> decide

/-- The three fields of the header lie side by side. -/
theorem toNat_header (acl : AclPacket) : acl.header.toNat =
      acl.handle.raw.toNat + 4096 * acl.boundary.bits.toNat + 16384 * acl.broadcast.bits.toNat := by
  have hhandle : acl.handle.raw.toNat ≤ 3839 := acl.handle.le_max
  have hboundary := bits_boundary_lt acl.boundary
  have hbroadcast := bits_broadcast_lt acl.broadcast
  have hshift₁ : (acl.boundary.bits <<< 12).toNat = 2 ^ 12 * acl.boundary.bits.toNat := by
    cases acl.boundary <;> rfl
  have hshift₂ : (acl.broadcast.bits <<< 14).toNat = 2 ^ 14 * acl.broadcast.bits.toNat := by
    cases acl.broadcast <;> rfl
  have hlow : acl.handle.raw.toNat ||| 2 ^ 12 * acl.boundary.bits.toNat =
      2 ^ 12 * acl.boundary.bits.toNat + acl.handle.raw.toNat := by
    rw [Nat.or_comm, ← Nat.two_pow_add_eq_or_of_lt (by omega)]
  have hhigh : 2 ^ 12 * acl.boundary.bits.toNat + acl.handle.raw.toNat |||
      2 ^ 14 * acl.broadcast.bits.toNat = 2 ^ 14 * acl.broadcast.bits.toNat +
        (2 ^ 12 * acl.boundary.bits.toNat + acl.handle.raw.toNat) := by
    rw [Nat.or_comm, ← Nat.two_pow_add_eq_or_of_lt (by omega)]
  rw [header, UInt16.toNat_or, UInt16.toNat_or, hshift₁, hshift₂, hlow, hhigh]
  omega

theorem header_handle (acl : AclPacket) : acl.header &&& 0x0FFF = acl.handle.raw := by
  have hhandle : acl.handle.raw.toNat ≤ 3839 := acl.handle.le_max
  apply UInt16.toNat_inj.mp
  have hmask : (acl.header &&& 0x0FFF).toNat = acl.header.toNat % 4096 := by
    rw [UInt16.toNat_and]
    exact Nat.and_two_pow_sub_one_eq_mod acl.header.toNat 12
  rw [hmask, toNat_header]
  omega

theorem header_boundary (acl : AclPacket) :
    PacketBoundary.fromBits (acl.header >>> 12) = acl.boundary := by
  have hhandle : acl.handle.raw.toNat ≤ 3839 := acl.handle.le_max
  have hboundary := bits_boundary_lt acl.boundary
  have hfield : (acl.header >>> 12) &&& 0b11 = acl.boundary.bits := by
    apply UInt16.toNat_inj.mp
    have hshift : ((acl.header >>> 12) &&& 0b11).toNat = acl.header.toNat / 4096 % 4 := by
      rw [UInt16.toNat_and, UInt16.toNat_shiftRight]
      exact (Nat.and_two_pow_sub_one_eq_mod _ 2).trans (by rw [Nat.shiftRight_eq_div_pow]; rfl)
    rw [hshift, toNat_header]
    omega
  unfold PacketBoundary.fromBits
  rw [hfield]
  cases acl.boundary <;> rfl

theorem header_broadcast (acl : AclPacket) :
    Broadcast.fromBits (acl.header >>> 14) = acl.broadcast := by
  have hhandle : acl.handle.raw.toNat ≤ 3839 := acl.handle.le_max
  have hboundary := bits_boundary_lt acl.boundary
  have hbroadcast := bits_broadcast_lt acl.broadcast
  have hfield : (acl.header >>> 14) &&& 0b11 = acl.broadcast.bits := by
    apply UInt16.toNat_inj.mp
    have hshift : ((acl.header >>> 14) &&& 0b11).toNat = acl.header.toNat / 16384 % 4 := by
      rw [UInt16.toNat_and, UInt16.toNat_shiftRight]
      exact (Nat.and_two_pow_sub_one_eq_mod _ 2).trans (by rw [Nat.shiftRight_eq_div_pow]; rfl)
    rw [hshift, toNat_header]
    omega
  unfold Broadcast.fromBits
  rw [hfield]
  cases acl.broadcast <;> rfl

end AclPacket

end Castaway.Hci
