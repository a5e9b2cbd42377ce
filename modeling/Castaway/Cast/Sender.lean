import Castaway.Cast.Rtp

/-!
# What a Cast sender puts on the wire

A sender of the other end, as far as the receiver depends on it: every frame is
split into packets, and each transmission of a packet carries the same content
under whatever payload type, marker bit and sequence number it goes out with.
`parse_datagram` is the round trip: a datagram whose frame id lies within 127 of
the highest one seen parses to the packet it was made from.
-/

namespace Castaway.Cast

open List

/-! ## Frames as sent -/

/-- One extension of the Cast header. -/
structure Extension where
  extType : ℕ
  data : Bytes
  extType_lt : extType < 64
  length_lt : data.length < 1024
  latency_length : extType = adaptiveLatencyExtType → data.length = 2

namespace Extension

def encode (extension : Extension) : Bytes :=
  beBytes 2 (extension.extType * 1024 + extension.data.length) ++ extension.data

def delayAfter (delay : Option ℕ) (extension : Extension) : Option ℕ :=
  if extension.extType = adaptiveLatencyExtType then some (beNat extension.data) else delay

end Extension

/-- The content of one packet of frame `frameId`. -/
structure SentPacket (frameId : ℤ) where
  rtpTimestamp : UInt32
  isKeyFrame : Bool
  /-- The frame this one refers to, when the packet says so. -/
  reference : Option ℤ
  extensions : List Extension
  payload : Bytes
  reference_near : ∀ r ∈ reference, frameId - 128 ≤ r ∧ r ≤ frameId + 127
  extensions_length : extensions.length < 64

namespace SentPacket

variable {frameId : ℤ}

def referencedFrameId (packet : SentPacket frameId) : ℤ :=
  packet.reference.getD
    (if packet.isKeyFrame then frameId else FrameId.previous frameId)

def dependency (packet : SentPacket frameId) : Dependency :=
  if packet.isKeyFrame then .keyFrame
  else if frameId = packet.referencedFrameId then .independent
  else .dependent

/-- The playout delay a packet asks for: that of its last latency extension. -/
def newPlayoutDelayMs (packet : SentPacket frameId) : Option ℕ :=
  packet.extensions.foldl Extension.delayAfter none

def flags (packet : SentPacket frameId) : UInt8 :=
  (if packet.isKeyFrame then 0b10000000 else 0) |||
    (if packet.reference.isSome then 0b01000000 else 0) ||| UInt8.ofNat packet.extensions.length

end SentPacket

/-- A frame split into packets `0, 1, …`. -/
structure SentFrame (frameId : ℤ) where
  packets : List (SentPacket frameId)
  nonempty : packets ≠ []
  length_le : packets.length ≤ allPacketsLost

/-- A sender of one stream: what it sends as frame `frameId`. -/
structure CastSender where
  ssrc : UInt32
  frame : (frameId : ℤ) → SentFrame frameId

/-- What may differ between transmissions of one packet. -/
structure Transmission where
  /-- The marker bit and the payload type. -/
  typeByte : UInt8
  sequenceNumber : UInt16
  assigned : isAssignedPayloadType (typeByte &&& 0b01111111) = true

/-- The datagram that carries packet `index` of a frame of `count` packets. -/
def SentPacket.datagram {frameId : ℤ} (packet : SentPacket frameId) (ssrc : UInt32)
    (index count : ℕ) (transmission : Transmission) : Bytes :=
  [0b10000000, transmission.typeByte] ++ beBytes 2 transmission.sequenceNumber.toNat ++
    beBytes 4 packet.rtpTimestamp.toNat ++ beBytes 4 ssrc.toNat ++
    [packet.flags, FrameId.lower8Bits frameId] ++ beBytes 2 index ++ beBytes 2 (count - 1) ++
    (packet.reference.map FrameId.lower8Bits).toList ++
    packet.extensions.flatMap Extension.encode ++ packet.payload

/-! ## Parsing them back -/

theorem parseExtensions_encode (extensions : List Extension) (delay : Option ℕ) (payload : Bytes) :
    parseExtensions extensions.length delay (extensions.flatMap Extension.encode ++ payload) =
      .ok (extensions.foldl Extension.delayAfter delay, payload) := by
  induction extensions generalizing delay with
  | nil => rfl
  | cons extension extensions ih =>
    have htype := extension.extType_lt
    have hlength := extension.length_lt
    obtain ⟨b₀, b₁, hbytes, hvalue⟩ := exists_beBytes_two
      (show extension.extType * 1024 + extension.data.length < 65536 by omega)
    have htypeField : (extension.extType * 1024 + extension.data.length) / 1024 =
        extension.extType := by omega
    have hsizeField : (extension.extType * 1024 + extension.data.length) % 1024 =
        extension.data.length := by omega
    have hroom : ¬(extension.data ++ (extensions.flatMap Extension.encode ++ payload)).length <
        extension.data.length := by
      simp only [length_append]
      omega
    simp only [flatMap_cons, Extension.encode, hbytes, append_assoc, cons_append,
      nil_append, length_cons, parseExtensions, hvalue, htypeField, hsizeField,
      if_neg hroom, drop_left, foldl_cons]
    by_cases hlatency : extension.extType = adaptiveLatencyExtType
    · have htwo := extension.latency_length hlatency
      have htake : (extension.data ++ (extensions.flatMap Extension.encode ++ payload)).take 2 =
          extension.data := by rw [← htwo, take_left]
      rw [if_pos hlatency, if_neg (not_not.mpr htwo), htake, ih,
        Extension.delayAfter, if_pos hlatency]
    · rw [if_neg hlatency, ih, Extension.delayAfter, if_neg hlatency]

namespace SentPacket

variable {frameId : ℤ}

/-- The three fields of the flags byte come back from under their masks. -/
theorem flags_fields (packet : SentPacket frameId) :
    decide (packet.flags &&& 0b10000000 ≠ 0) = packet.isKeyFrame ∧
      decide (packet.flags &&& 0b01000000 ≠ 0) = packet.reference.isSome ∧
      (packet.flags &&& 0b00111111).toNat = packet.extensions.length := by
  have hall : ∀ (count : Fin 64) (key reference : Bool),
      decide (((if key then (0b10000000 : UInt8) else 0) |||
          (if reference then 0b01000000 else 0) ||| UInt8.ofNat count) &&& 0b10000000 ≠ 0) = key ∧
        decide (((if key then (0b10000000 : UInt8) else 0) |||
          (if reference then 0b01000000 else 0) ||| UInt8.ofNat count) &&& 0b01000000 ≠ 0) =
            reference ∧
        (((if key then (0b10000000 : UInt8) else 0) |||
          (if reference then 0b01000000 else 0) ||| UInt8.ofNat count) &&& 0b00111111).toNat =
            count := by decide +kernel
  exact hall ⟨_, packet.extensions_length⟩ packet.isKeyFrame packet.reference.isSome

theorem parseReference_encode (packet : SentPacket frameId) (rest : Bytes) :
    parseReference frameId packet.isKeyFrame packet.reference.isSome
        ((packet.reference.map FrameId.lower8Bits).toList ++ rest) =
      .ok (packet.referencedFrameId, rest) := by
  unfold parseReference referencedFrameId
  cases hreference : packet.reference with
  | none =>
    simp only [Option.isSome_none, Bool.false_eq_true, if_false, Option.map_none,
      Option.toList_none, nil_append, Option.getD_none]
    split <;> rfl
  | some r =>
    obtain ⟨hlow, hhigh⟩ := packet.reference_near r hreference
    simp only [Option.isSome_some, if_true, Option.map_some, Option.toList_some,
      cons_append, nil_append, Option.getD_some,
      FrameId.expand_lower8Bits hlow hhigh]

/-- **A datagram near the highest frame seen parses to the packet it was made
from.** -/
theorem parse_datagram (packet : SentPacket frameId) (stream : CastRtpStream) {index count : ℕ}
    (hindex : index < count) (hcount : count ≤ allPacketsLost) (transmission : Transmission)
    (hlow : stream.highestFrameId - 127 ≤ frameId) (hhigh : frameId ≤ stream.highestFrameId + 127) :
    ∃ parsed stream', stream.parse (packet.datagram stream.senderSsrc index count transmission) =
        .ok (parsed, stream') ∧
      parsed.frameId = frameId ∧ parsed.packetId.get = index ∧
      parsed.maxPacketId.get = count - 1 ∧ parsed.payload = packet.payload ∧
      parsed.isKeyFrame = packet.isKeyFrame ∧
      parsed.referencedFrameId = packet.referencedFrameId ∧
      parsed.newPlayoutDelayMs = packet.newPlayoutDelayMs ∧
      parsed.rtpTimestamp = RtpTimestamp.expand stream.lastTimestamp packet.rtpTimestamp := by
  have hbound : allPacketsLost = 65535 := rfl
  obtain ⟨s₀, s₁, hsequence, hsequence'⟩ :=
    exists_beBytes_two (n := transmission.sequenceNumber.toNat) (UInt16.toNat_lt _)
  obtain ⟨t₀, t₁, t₂, t₃, htimestamp, htimestamp'⟩ :=
    exists_beBytes_four (n := packet.rtpTimestamp.toNat) (UInt32.toNat_lt _)
  obtain ⟨r₀, r₁, r₂, r₃, hssrc, hssrc'⟩ :=
    exists_beBytes_four (n := stream.senderSsrc.toNat) (UInt32.toNat_lt _)
  obtain ⟨p₀, p₁, hid, hid'⟩ := exists_beBytes_two (show index < 65536 by omega)
  obtain ⟨m₀, m₁, hmax, hmax'⟩ := exists_beBytes_two (show count - 1 < 65536 by omega)
  obtain ⟨hkey, hreference, hextensions⟩ := packet.flags_fields
  have hframe : FrameId.expand stream.highestFrameId (FrameId.lower8Bits frameId) = frameId :=
    FrameId.expand_lower8Bits (by omega) hhigh
  have hnewId : PacketId.new index = some ⟨index, by omega⟩ := dif_pos (by omega)
  have hnewMax : PacketId.new (count - 1) = some ⟨count - 1, by omega⟩ := dif_pos (by omega)
  simp only [datagram, hsequence, htimestamp, hssrc, hid, hmax, cons_append, nil_append,
    append_assoc, CastRtpStream.parse, hssrc', htimestamp', hid', hmax', hkey, hreference,
    hextensions, hframe, transmission.assigned, UInt32.ofNat_toNat, hnewId, hnewMax,
    parseReference_encode, parseExtensions_encode, ok_bind, if_neg (show ¬index > count - 1 by omega),
    ne_eq, not_true_eq_false, if_false, Bool.not_true, Bool.false_eq_true]
  exact ⟨_, _, rfl, rfl, rfl, rfl, rfl, rfl, rfl, rfl, rfl⟩

end SentPacket

end Castaway.Cast
