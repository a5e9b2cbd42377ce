import Castaway.Core.Media

/-!
# Codec capabilities

A capability block names a set of options for every parameter of a codec, and a
configuration is such a block with one option of each.  The two are one type, as
they are one structure on the wire: the sender hands our own block back with its
choices made.
-/

namespace Castaway.Bluetooth

open Castaway.Core (AudioCodec AudioFormat)

inductive AudioError where
  | truncated (what : String) (need available : ℕ)
  | invalidSeid (raw : UInt8)
  | unknownSignal (id : UInt8)
  | badMediaPacket (what : String)
  | unsupportedCodec (what : String) (id : ℕ)
  deriving DecidableEq, Repr

/-! ## Sets of options -/

/-- How many of the low `width` bits are set. -/
def countOnes (width bits : ℕ) : ℕ := (List.range width).countP bits.testBit

structure SampleRates where
  bits : UInt8
  deriving DecidableEq, Repr

namespace SampleRates

def hz16000 : SampleRates := ⟨0b1000⟩
def hz32000 : SampleRates := ⟨0b0100⟩
def hz44100 : SampleRates := ⟨0b0010⟩
def hz48000 : SampleRates := ⟨0b0001⟩
def all : SampleRates := ⟨0b1111⟩

def common : SampleRates := ⟨hz44100.bits ||| hz48000.bits⟩

def fromBits (bits : UInt8) : SampleRates := ⟨bits &&& 0x0F⟩

def isSingle (rates : SampleRates) : Bool := countOnes 8 rates.bits.toNat == 1

def hz (rates : SampleRates) : Option ℕ :=
  if rates.bits = 0b1000 then some 16000
  else if rates.bits = 0b0100 then some 32000
  else if rates.bits = 0b0010 then some 44100
  else if rates.bits = 0b0001 then some 48000
  else none

end SampleRates

structure ChannelModes where
  bits : UInt8
  deriving DecidableEq, Repr

namespace ChannelModes

def mono : ChannelModes := ⟨0b1000⟩
def dual : ChannelModes := ⟨0b0100⟩
def stereo : ChannelModes := ⟨0b0010⟩
def jointStereo : ChannelModes := ⟨0b0001⟩
def all : ChannelModes := ⟨0b1111⟩

def fromBits (bits : UInt8) : ChannelModes := ⟨bits &&& 0x0F⟩

def isSingle (modes : ChannelModes) : Bool := countOnes 8 modes.bits.toNat == 1

def channelCount (modes : ChannelModes) : ℕ := if modes.bits = mono.bits then 1 else 2

end ChannelModes

/-! ## Capabilities -/

inductive CodecCapability where
  | sbc (rates : SampleRates) (channels : ChannelModes) (blockLengths subbands allocations : UInt8)
      (minBitpool maxBitpool : UInt8)
  | aac (objectTypes : UInt8) (rateBits : UInt16) (channelBits : UInt8) (vbr : Bool)
      (bitrate : UInt32)
  | aptX (rates : SampleRates) (channels : ChannelModes)
  | aptXHd (rates : SampleRates) (channels : ChannelModes)
  | ldac (rateBits channelBits : UInt8)
  deriving DecidableEq, Repr

/-- AAC numbers its rates from the top of a field of twelve bits. -/
def aacRateHz (bits : UInt16) : Option ℕ :=
  if bits = 0b100000000000 then some 8000
  else if bits = 0b010000000000 then some 11025
  else if bits = 0b001000000000 then some 12000
  else if bits = 0b000100000000 then some 16000
  else if bits = 0b000010000000 then some 22050
  else if bits = 0b000001000000 then some 24000
  else if bits = 0b000000100000 then some 32000
  else if bits = 0b000000010000 then some 44100
  else if bits = 0b000000001000 then some 48000
  else if bits = 0b000000000100 then some 64000
  else if bits = 0b000000000010 then some 88200
  else if bits = 0b000000000001 then some 96000
  else none

def ldacRateHz (bits : UInt8) : Option ℕ :=
  if bits = 0b100000 then some 44100
  else if bits = 0b010000 then some 48000
  else if bits = 0b001000 then some 88200
  else if bits = 0b000100 then some 96000
  else if bits = 0b000010 then some 176400
  else if bits = 0b000001 then some 192000
  else none

namespace CodecCapability

def audioCodec : CodecCapability → AudioCodec
  | .sbc .. => .sbc
  | .aac .. => .aac
  | .aptX .. => .aptX
  | .aptXHd .. => .aptXHd
  | .ldac .. => .ldac

/-- Every parameter selects exactly one option. -/
def isConfiguration : CodecCapability → Bool
  | .sbc rates channels blockLengths subbands allocations _ _ =>
    rates.isSingle && channels.isSingle && countOnes 8 blockLengths.toNat == 1 &&
      countOnes 8 subbands.toNat == 1 && countOnes 8 allocations.toNat == 1
  | .aac objectTypes rateBits channelBits _ _ =>
    countOnes 8 objectTypes.toNat == 1 && countOnes 16 rateBits.toNat == 1 &&
      countOnes 8 channelBits.toNat == 1
  | .aptX rates channels | .aptXHd rates channels => rates.isSingle && channels.isSingle
  | .ldac rateBits channelBits =>
    countOnes 8 rateBits.toNat == 1 && countOnes 8 channelBits.toNat == 1

def sampleRate : CodecCapability → Option ℕ
  | .sbc rates _ _ _ _ _ _ | .aptX rates _ | .aptXHd rates _ => rates.hz
  | .aac _ rateBits _ _ _ => aacRateHz rateBits
  | .ldac rateBits _ => ldacRateHz rateBits

def channelCount : CodecCapability → Option ℕ
  | .sbc _ channels _ _ _ _ _ | .aptX _ channels | .aptXHd _ channels =>
    if channels.isSingle then some channels.channelCount else none
  -- the field counts down
  | .aac _ _ channelBits _ _ =>
    if channelBits = 0b10 then some 1 else if channelBits = 0b01 then some 2 else none
  | .ldac _ channelBits =>
    if channelBits = 0b100 then some 1
    else if channelBits = 0b010 || channelBits = 0b001 then some 2
    else none

/-- The stream shape a configuration settled on. -/
def format (capability : CodecCapability) : Option AudioFormat :=
  capability.sampleRate.bind fun rate =>
    capability.channelCount.bind fun channels => AudioFormat.fromHz rate channels

/-! ### The wire -/

def vendorAptX : Bytes := leBytes 4 0x4F ++ leBytes 2 0x0001
def vendorAptXHd : Bytes := leBytes 4 0xD7 ++ leBytes 2 0x0024
def vendorLdac : Bytes := leBytes 4 0x012D ++ leBytes 2 0x00AA

def encode : CodecCapability → Bytes
  | .sbc rates channels blockLengths subbands allocations minBitpool maxBitpool =>
    [0x00, 0x00, (rates.bits <<< 4) ||| channels.bits,
      (blockLengths <<< 4) ||| (subbands <<< 2) ||| allocations, minBitpool, maxBitpool]
  | .aac objectTypes rateBits channelBits vbr bitrate =>
    let ceiling := bitrate &&& 0x007FFFFF
    [0x00, 0x02, objectTypes, (rateBits >>> 4).toUInt8,
      ((rateBits &&& 0x000F).toUInt8 <<< 4) ||| (channelBits <<< 2),
      (if vbr then (0x80 : UInt8) else 0) ||| (ceiling >>> 16).toUInt8,
      (ceiling >>> 8).toUInt8, ceiling.toUInt8]
  | .aptX rates channels =>
    ([0x00, 0xFF] : Bytes) ++ vendorAptX ++ [(rates.bits <<< 4) ||| channels.bits]
  | .aptXHd rates channels =>
    ([0x00, 0xFF] : Bytes) ++ vendorAptXHd ++ [(rates.bits <<< 4) ||| channels.bits, 0, 0, 0, 0]
  | .ldac rateBits channelBits =>
    ([0x00, 0xFF] : Bytes) ++ vendorLdac ++ [rateBits &&& 0x3F, channelBits &&& 0x07]

def short (buf : Bytes) (need : ℕ) : AudioError :=
  .truncated "media codec capability" need buf.length

/-- A block of vendor `id`, whose identity is in the six bytes after the type.
-/
def decodeVendor (buf : Bytes) : Except AudioError CodecCapability :=
  let identity := (buf.drop 2).take 6
  if identity = vendorAptX then
    if buf.length < 9 then .error (short buf 9)
    else .ok (.aptX (.fromBits (buf.getD 8 0 >>> 4)) (.fromBits (buf.getD 8 0 &&& 0x0F)))
  else if identity = vendorAptXHd then
    if buf.length < 9 then .error (short buf 9)
    else .ok (.aptXHd (.fromBits (buf.getD 8 0 >>> 4)) (.fromBits (buf.getD 8 0 &&& 0x0F)))
  else if identity = vendorLdac then
    if buf.length < 10 then .error (short buf 10)
    else .ok (.ldac (buf.getD 8 0 &&& 0x3F) (buf.getD 9 0 &&& 0x07))
  else .error (.unsupportedCodec "vendor codec" (leNat ((buf.drop 2).take 4)))

def decode (buf : Bytes) : Except AudioError CodecCapability :=
  if buf.length < 2 then .error (short buf 2)
  else if buf.getD 0 0 >>> 4 ≠ 0 then
    .error (.unsupportedCodec "media type" (buf.getD 0 0 >>> 4).toNat)
  else if buf.getD 1 0 = 0x00 then
    if buf.length < 6 then .error (short buf 6)
    else
      .ok (.sbc (.fromBits (buf.getD 2 0 >>> 4)) (.fromBits (buf.getD 2 0 &&& 0x0F))
        (buf.getD 3 0 >>> 4) ((buf.getD 3 0 >>> 2) &&& 0x03) (buf.getD 3 0 &&& 0x03)
        (buf.getD 4 0) (buf.getD 5 0))
  else if buf.getD 1 0 = 0x02 then
    if buf.length < 8 then .error (short buf 8)
    else
      .ok (.aac (buf.getD 2 0)
        (((buf.getD 3 0).toUInt16 <<< 4) ||| (buf.getD 4 0 >>> 4).toUInt16)
        ((buf.getD 4 0 >>> 2) &&& 0x03) (buf.getD 5 0 &&& 0x80 ≠ 0)
        (((buf.getD 5 0 &&& 0x7F).toUInt32 <<< 16) ||| ((buf.getD 6 0).toUInt32 <<< 8) |||
          (buf.getD 7 0).toUInt32))
  else if buf.getD 1 0 = 0xFF then
    if buf.length < 8 then .error (short buf 8) else decodeVendor buf
  else .error (.unsupportedCodec "codec type" (buf.getD 1 0).toNat)

/-- The options of a configuration are among those that a capability offers. -/
def Within (configuration offer : CodecCapability) : Prop :=
  match configuration, offer with
  | .sbc rates channels blockLengths subbands allocations minBitpool maxBitpool,
      .sbc rates' channels' blockLengths' subbands' allocations' minBitpool' maxBitpool' =>
      rates.bits &&& rates'.bits = rates.bits ∧ channels.bits &&& channels'.bits = channels.bits ∧
        blockLengths &&& blockLengths' = blockLengths ∧ subbands &&& subbands' = subbands ∧
        allocations &&& allocations' = allocations ∧ minBitpool' ≤ minBitpool ∧
        maxBitpool ≤ maxBitpool'
  | .aac objectTypes rateBits channelBits vbr bitrate,
      .aac objectTypes' rateBits' channelBits' vbr' bitrate' =>
      objectTypes &&& objectTypes' = objectTypes ∧ rateBits &&& rateBits' = rateBits ∧
        channelBits &&& channelBits' = channelBits ∧ (vbr = true → vbr' = true) ∧
        bitrate ≤ bitrate'
  | .aptX rates channels, .aptX rates' channels'
  | .aptXHd rates channels, .aptXHd rates' channels' =>
    rates.bits &&& rates'.bits = rates.bits ∧ channels.bits &&& channels'.bits = channels.bits
  | .ldac rateBits channelBits, .ldac rateBits' channelBits' =>
    rateBits &&& rateBits' = rateBits ∧ channelBits &&& channelBits' = channelBits
  | _, _ => False

end CodecCapability

end Castaway.Bluetooth
