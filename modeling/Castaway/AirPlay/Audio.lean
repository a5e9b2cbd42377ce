import Castaway.AirPlay.Mirror
import Castaway.AirPlay.Negotiation

/-!
# The AirPlay audio depacketiser

`AudioStream` of `audio.rs`, with the part of `clock.rs` it uses.  A datagram of
the audio or the control socket is an audio packet, a packet sent again in four
bytes of wrapper, or a sync packet; every error is about one datagram and leaves
the session alive.

The block cipher comes from outside: `cbc` decrypts whole blocks under a key
from a fresh initialisation vector.
-/

namespace Castaway.AirPlay

open Castaway.Core (AudioCodec EncodedFrame)

/-! ## The sender's clock -/

/-- Seconds between the two epochs. -/
def seconds1900To1970 : UInt64 := 2208988800

/-- A 64-bit NTP timestamp as nanoseconds, on the epoch it was built with. -/
def ntpAsNanos (raw : UInt64) : UInt64 :=
  let secs := raw >>> 32
  let frac := raw &&& 0xFFFFFFFF
  let below : UInt64 := (frac * 1000000000) >>> 32
  secs * 1000000000 + below

/-- What a sync packet establishes: this RTP frame was that instant on the
sender's clock, in nanoseconds. -/
structure SyncAnchor where
  rtp : UInt32
  senderNs : UInt64
  deriving DecidableEq, Repr

/-- The value of a saturating computation on `i64`. -/
def toI64 (x : ℤ) : ℤ := max (-2 ^ 63) (min x (2 ^ 63 - 1))

namespace SyncAnchor

/-- Where an RTP timestamp falls on the sender's clock. -/
def senderNsOf (anchor : SyncAnchor) (rtp sampleRate : UInt32) : UInt64 :=
  let raw := rtp - anchor.rtp
  let deltaFrames : ℤ :=
    if 4294967295 / 2 < raw then -((4294967295 - raw).toNat : ℤ) - 1 else raw.toNat
  let rate : ℤ := (max sampleRate 1).toNat
  let deltaNs := (toI64 (deltaFrames * 1000000000)).tdiv rate
  let base : ℤ := toI64 anchor.senderNs.toNat
  UInt64.ofNat (max (toI64 (base + deltaNs)) 0).toNat

end SyncAnchor

/-! ## What the session was announced with -/

def RaopCodec.toAudioCodec : RaopCodec → AudioCodec
  | alac _ => .alac
  | pcm _ _ => .pcm
  | aacEld _ _ => .aac

def aesBlock : ℕ := 16

/-- Only whole blocks are encrypted, each packet from the same vector; the
ragged tail is copied. -/
def StreamCrypto.decrypt (crypto : StreamCrypto) (cbc : Block → Block → Bytes → Bytes)
    (payload : Bytes) : Bytes :=
  match crypto with
  | none => payload
  | aes key iv =>
    let encryptedLen := payload.length - payload.length % aesBlock
    if encryptedLen = 0 then payload
    else cbc key iv (payload.take encryptedLen) ++ payload.drop encryptedLen

/-! ## Datagrams -/

/-- What is wrong with one datagram. -/
inductive AudioError where
  | tooShort (length : ℕ)
  | badVersion (version : UInt8)
  | unexpectedType (payloadType : UInt8)
  | awaitingSync
  | stale
  | duplicate
  | priming
  deriving DecidableEq, Repr

namespace RtpType

def audio : UInt8 := 96
def resendReply : UInt8 := 86
def sync : UInt8 := 84

end RtpType

def rtpHeaderLen : ℕ := 12

def resendPrefixLen : ℕ := 4

/-- The parts of an RTP header this protocol uses. -/
structure RtpKind where
  payloadType : UInt8
  sequence : UInt16
  timestamp : UInt32
  deriving DecidableEq, Repr

/-- Split a datagram into its header fields and payload. -/
def splitRtp (datagram : Bytes) : Except AudioError (RtpKind × Bytes) :=
  match datagram with
  | b₀ :: b₁ :: b₂ :: b₃ :: b₄ :: b₅ :: b₆ :: b₇ :: rest =>
    if datagram.length < rtpHeaderLen then .error (.tooShort datagram.length)
    else if b₀ >>> 6 != 2 then .error (.badVersion (b₀ >>> 6))
    else
      .ok (⟨b₁ &&& 0x7F, getU16Be b₂ b₃, UInt32.ofNat (beNat [b₄, b₅, b₆, b₇])⟩, rest.drop 4)
  | _ => .error (.tooShort datagram.length)

/-- A sync packet: the sender telling which frame should be playing when. -/
structure Sync where
  rtpNowLessLatency : UInt32
  senderNtp : UInt64
  rtpAnchor : UInt32
  first : Bool
  deriving DecidableEq, Repr

def syncPacketLen : ℕ := 20

/-- Parse a sync packet, which is no RTP header and payload: the NTP timestamp
stands where a header has its source. -/
def parseSync (datagram : Bytes) : Except AudioError Sync :=
  if datagram.length < syncPacketLen then .error (.tooShort datagram.length)
  else
    let fixed := datagram.take syncPacketLen
    .ok {
      rtpNowLessLatency := UInt32.ofNat (beNat ((fixed.drop 4).take 4))
      senderNtp := UInt64.ofNat (beNat ((fixed.drop 8).take 8))
      rtpAnchor := UInt32.ofNat (beNat ((fixed.drop 16).take 4))
      first := (fixed.headD 0) &&& 0x10 != 0 }

/-! ## The stream -/

/-- What one datagram turned out to mean. -/
inductive AudioOutput where
  | frame (sequence : UInt16) (rtpTimestamp : UInt32) (frame : EncodedFrame)
  | sync (sync : Sync)
  deriving DecidableEq, Repr

/-- The timestamps handed on lately, oldest first. -/
structure Delivered where
  recent : List UInt32 := []
  deriving DecidableEq, Repr

namespace Delivered

/-- How many delivered frames are remembered. -/
def window : ℕ := 64

/-- Record a timestamp as delivered, or report that it already was. -/
def accept (delivered : Delivered) (timestamp : UInt32) : Delivered × Bool :=
  if timestamp ∈ delivered.recent then (delivered, false)
  else if delivered.recent.length = window then (⟨delivered.recent.tail ++ [timestamp]⟩, true)
  else (⟨delivered.recent ++ [timestamp]⟩, true)

end Delivered

/-- The depacketiser for one audio session. -/
structure AudioStream where
  codec : RaopCodec
  crypto : StreamCrypto
  audioCodec : Option AudioCodec
  /-- The timestamp of the first audio packet, when the stream stands alone. -/
  firstTimestamp : Option UInt32 := none
  /-- The origin shared with the video plane, when there is one. -/
  origin : Option StreamOrigin := none
  anchor : Option SyncAnchor := none
  flush : Option FlushPoint := none
  staleDropped : ℕ := 0
  delivered : Delivered := {}
  duplicatesDropped : ℕ := 0
  deriving DecidableEq

/-- The marker payload of a sender that has no audio to send yet. -/
def aacEldPriming : Bytes := [0x00, 0x68, 0x34, 0x00]

namespace AudioStream

def new (codec : RaopCodec) (crypto : StreamCrypto) : AudioStream where
  codec := codec
  crypto := crypto
  audioCodec := some codec.toAudioCodec

def withOrigin (stream : AudioStream) (origin : StreamOrigin) : AudioStream :=
  { stream with origin := some origin }

/-- The sender flushed: everything before `point` is stale. -/
def flushTo (stream : AudioStream) (point : FlushPoint) : AudioStream :=
  { stream with flush := some point, delivered := {} }

/-- The presentation time of a timestamp in nanoseconds, and what it may have
set. -/
def place (stream : AudioStream) (timestamp : UInt32) : AudioStream × Except AudioError ℕ :=
  match stream.origin with
  | some origin =>
    match stream.anchor with
    | none => (stream, .error .awaitingSync)
    | some anchor =>
      let (origin, pts) := origin.pts (anchor.senderNsOf timestamp stream.codec.sampleRate)
      ({ stream with origin := some origin }, .ok pts)
  | none =>
    let first := stream.firstTimestamp.getD timestamp
    let elapsedFrames := timestamp - first
    ({ stream with firstTimestamp := some first },
      .ok (min (elapsedFrames.toNat * 1000000000) (2 ^ 64 - 1) /
        (max stream.codec.sampleRate 1).toNat))

def output (stream : AudioStream) (cbc : Block → Block → Bytes → Bytes) (kind : RtpKind)
    (payload : Bytes) : AudioStream × Except AudioError AudioOutput :=
  match stream.place kind.timestamp with
  | (placed, .error e) => (placed, .error e)
  | (placed, .ok pts) =>
    (placed, .ok (.frame kind.sequence kind.timestamp
      { videoCodec := none
        audioCodec := stream.audioCodec
        pts := pts
        keyframe := false
        data := stream.crypto.decrypt cbc payload }))

/-- A payload that is not stale: not there yet, a copy of one that was
delivered, or new. -/
def package (stream : AudioStream) (cbc : Block → Block → Bytes → Bytes) (kind : RtpKind)
    (payload : Bytes) : AudioStream × Except AudioError AudioOutput :=
  if payload.isEmpty || payload == aacEldPriming then (stream, .error .priming)
  else
    match stream.delivered.accept kind.timestamp with
    | (delivered, false) =>
      ({ stream with
          delivered := delivered
          duplicatesDropped := stream.duplicatesDropped + 1 }, .error .duplicate)
    | (delivered, true) => output { stream with delivered := delivered } cbc kind payload

def audioPacket (stream : AudioStream) (cbc : Block → Block → Bytes → Bytes) (kind : RtpKind)
    (payload : Bytes) : AudioStream × Except AudioError AudioOutput :=
  match stream.flush.bind (·.rtp) with
  | some start =>
    if 4294967295 / 2 < kind.timestamp - start then
      ({ stream with staleDropped := stream.staleDropped + 1 }, .error .stale)
    -- caught up: the rest of the session is not tested
    else package { stream with flush := none } cbc kind payload
  | none => package stream cbc kind payload

/-- A retransmitted packet: four bytes of wrapper, then a complete audio packet.
-/
def resendReply (stream : AudioStream) (cbc : Block → Block → Bytes → Bytes) (datagram : Bytes) :
    AudioStream × Except AudioError AudioOutput :=
  if datagram.length < resendPrefixLen then (stream, .error (.tooShort datagram.length))
  else
    match splitRtp (datagram.drop resendPrefixLen) with
    | .error e => (stream, .error e)
    | .ok (kind, body) =>
      if kind.payloadType = RtpType.audio then audioPacket stream cbc kind body
      else (stream, .error (.unexpectedType kind.payloadType))

def onAudio (stream : AudioStream) (cbc : Block → Block → Bytes → Bytes) (datagram : Bytes) :
    AudioStream × Except AudioError AudioOutput :=
  match splitRtp datagram with
  | .error e => (stream, .error e)
  | .ok (kind, body) =>
    if kind.payloadType = RtpType.audio then audioPacket stream cbc kind body
    else if kind.payloadType = RtpType.resendReply then resendReply stream cbc datagram
    else (stream, .error (.unexpectedType kind.payloadType))

def onControl (stream : AudioStream) (cbc : Block → Block → Bytes → Bytes) (datagram : Bytes) :
    AudioStream × Except AudioError AudioOutput :=
  match splitRtp datagram with
  | .error e => (stream, .error e)
  | .ok (kind, _) =>
    if kind.payloadType = RtpType.sync then
      match parseSync datagram with
      | .error e => (stream, .error e)
      | .ok sync =>
        let nanos := ntpAsNanos sync.senderNtp
        let epoch := seconds1900To1970 * 1000000000
        ({ stream with anchor := some {
            rtp := sync.rtpAnchor
            senderNs := if nanos < epoch then 0 else nanos - epoch } }, .ok (.sync sync))
    else if kind.payloadType = RtpType.resendReply then resendReply stream cbc datagram
    else (stream, .error (.unexpectedType kind.payloadType))

end AudioStream

end Castaway.AirPlay
