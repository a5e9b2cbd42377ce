import Castaway.Core.Media
import Castaway.Lib.Framing
import Castaway.Lib.Result

/-!
# The AirPlay mirroring data channel

A TCP connection carries messages of a fixed 128-byte header and a payload.
Type 0 is an access unit, framed with lengths and encrypted; type 1 the decoder
configuration that the next access unit needs, in the clear; types 2 and 5 want
no answer.  Any of them may carry the flag that says the sender is suspending.

The cipher is AES-128 in counter mode.  Here it is a keystream and the position
reached in it: what the keystream is does not matter to anything below, and the
position never goes back.
-/

namespace Castaway.AirPlay

open Castaway.Core (EncodedFrame VideoCodec)
open List

/-- What a mirroring connection ends for. -/
inductive MirrorError where
  | shortHeader (length : ℕ)
  | payloadTooLarge (length : ℕ)
  | unknownPayloadType (kind : UInt8)
  | malformedAccessUnit
  | malformedCodecConfig
  | codecRefused
  deriving DecidableEq, Repr

/-- A call that gives no result: it returns an error, or it indexes past the end
of a payload. -/
inductive Failure where
  | error (e : MirrorError)
  | panic
  deriving DecidableEq, Repr

def headerLen : ℕ := 128

namespace PayloadType

def video : UInt8 := 0
def codecConfig : UInt8 := 1
def heartbeat : UInt8 := 2
def stats : UInt8 := 5

end PayloadType

/-- A video codec a mirroring sender may be offered. -/
inductive MirrorCodec where
  | h264
  | hevc
  deriving DecidableEq, Repr

/-- The pipeline's name for the same codec. -/
def MirrorCodec.toVideoCodec : MirrorCodec → VideoCodec
  | h264 => .h264
  | hevc => .hevc

/-- The marker that distinguishes an HEVC configuration record: `hvc1`. -/
def hvccMarker : Bytes := [0x68, 0x76, 0x63, 0x31]

/-- Flag bit meaning that the sender is suspending this stream. -/
def flagSuspend : UInt16 := 0x40

/-- The encoded geometry a type-1 packet reports.  The four numbers are single
precision floats, kept as the bit patterns they arrive as. -/
structure Geometry where
  source : UInt32 × UInt32
  encoded : UInt32 × UInt32
  deriving DecidableEq, Repr

/-- What one framed message turned out to be. -/
inductive MirrorOutput where
  | frame (frame : EncodedFrame)
  | geometry (geometry : Geometry)
  | suspend
  | resume
  deriving DecidableEq, Repr

/-! ## The header -/

/-- The parsed 128-byte header. -/
structure Header where
  payloadLen : ℕ
  kind : UInt8
  suspending : Bool
  timestamp : UInt64
  geometry : Geometry
  deriving DecidableEq, Repr

namespace Header

/-- The little-endian number in `width` bytes from `at_`. -/
def field (fixed : Bytes) (at_ width : ℕ) : ℕ := leNat ((fixed.drop at_).take width)

def parse (b : Bytes) : Except MirrorError Header :=
  if b.length < headerLen then .error (.shortHeader b.length)
  else
    let fixed := b.take headerLen
    let f32le := fun at_ => UInt32.ofNat (field fixed at_ 4)
    .ok {
      payloadLen := field fixed 0 4
      kind := fixed.getD 4 0
      suspending := (getU16Le (fixed.getD 6 0) (fixed.getD 7 0) &&& flagSuspend) != 0
      timestamp := UInt64.ofNat (field fixed 8 8)
      geometry := ⟨(f32le 16, f32le 20), (f32le 56, f32le 60)⟩ }

end Header

/-! ## Payloads -/

def startCode : Bytes := [0, 0, 0, 1]

/-- Whether a NAL unit that starts with this byte is an IDR. -/
def isIdr (codec : MirrorCodec) (first : UInt8) : Bool :=
  match codec with
  | .h264 => (first &&& 0x1f) == 5
  | .hevc => 16 ≤ ((first &&& 0x7e) >>> 1).toNat && ((first &&& 0x7e) >>> 1).toNat ≤ 21

/-- Rewrite the length in front of each NAL unit as a start code, and say
whether there was an IDR.  `data` is what has not been walked yet. -/
def toAnnexB (data : Bytes) (codec : MirrorCodec) : Except Failure (Bytes × Bool) :=
  match data with
  | [] => .ok ([], false)
  | b₀ :: b₁ :: b₂ :: b₃ :: rest =>
    let nalLen := beNat [b₀, b₁, b₂, b₃]
    if rest.length < nalLen then .error (.error .malformedAccessUnit)
    else
      match rest.head? with
      -- the first byte of a NAL unit without bytes, at the very end
      | none => .error .panic
      | some first =>
        if (first &&& 0x80) != 0 then .error (.error .malformedAccessUnit)
        else do
          let (tail, keyframe) ← toAnnexB (rest.drop nalLen) codec
          pure (startCode ++ rest.take nalLen ++ tail, isIdr codec first || keyframe)
  | _ => .error (.error .malformedAccessUnit)
termination_by data.length
decreasing_by
  all_goals
    simp only [length_cons, length_drop]
    omega

/-- The `width` bytes from `at_`, if the record has them. -/
def slice (record : Bytes) (at_ width : ℕ) : Except MirrorError Bytes :=
  if record.length < at_ + width then .error .malformedCodecConfig
  else .ok ((record.drop at_).take width)

/-- The 16-bit length at `at_`. -/
def readU16 (record : Bytes) (at_ : ℕ) : Except MirrorError ℕ :=
  (slice record at_ 2).map beNat

/-- Pull SPS and PPS out of an `AVCDecoderConfigurationRecord`. -/
def avcParameterSets (record : Bytes) : Except MirrorError Bytes := do
  let spsLenAt := 6
  let spsLen ← readU16 record spsLenAt
  let spsStart := spsLenAt + 2
  let sps ← slice record spsStart spsLen
  -- one byte for the number of PPS, then the PPS itself
  let ppsLenAt := spsStart + spsLen + 1
  let ppsLen ← readU16 record ppsLenAt
  let ppsStart := ppsLenAt + 2
  let pps ← slice record ppsStart ppsLen
  pure (startCode ++ sps ++ (startCode ++ pps))

/-- The NAL units of one array of an `hvcC` record, and where the array ends. -/
def hevcNals (record : Bytes) : (count at_ : ℕ) → Except MirrorError (Bytes × ℕ)
  | 0, at_ => .ok ([], at_)
  | count + 1, at_ => do
      let len ← readU16 record at_
      let nal ← slice record (at_ + 2) len
      let (tail, end_) ← hevcNals record count (at_ + 2 + len)
      pure (startCode ++ nal ++ tail, end_)

/-- The arrays of an `hvcC` record: each a type byte, a count and its NAL units.
-/
def hevcArrays (record : Bytes) : (numArrays at_ : ℕ) → Except MirrorError Bytes
  | 0, _ => .ok []
  | numArrays + 1, at_ => do
      let count ← readU16 record (at_ + 1)
      let (nals, end_) ← hevcNals record count (at_ + 3)
      let tail ← hevcArrays record numArrays end_
      pure (nals ++ tail)

/-- Pull VPS, SPS and PPS out of an `hvcC` record. -/
def hevcParameterSets (record : Bytes) : Except MirrorError Bytes := do
  let arraysAt := 22
  let numArrays ← slice record arraysAt 1
  let out ← hevcArrays record (beNat numArrays) (arraysAt + 1)
  if out.isEmpty then .error .malformedCodecConfig else pure out

def codecOf (payload : Bytes) : MirrorCodec :=
  if 8 < payload.length && (payload.drop 4).take 4 == hvccMarker then .hevc else .h264

/-- The parameter sets in a record for `codec`. -/
def parameterSets (codec : MirrorCodec) (payload : Bytes) : Except MirrorError Bytes :=
  match codec with
  | .h264 => avcParameterSets payload
  | .hevc => hevcParameterSets payload

/-! ## The stream -/

/-- A keystream and how much of it has been used. -/
structure Cipher where
  keystream : ℕ → UInt8
  position : ℕ

/-- `data` under the keystream from `offset` on. -/
def xorFrom (keystream : ℕ → UInt8) : (offset : ℕ) → Bytes → Bytes
  | _, [] => []
  | offset, b :: rest => (b ^^^ keystream offset) :: xorFrom keystream (offset + 1) rest

def Cipher.applyKeystream (cipher : Cipher) (data : Bytes) : Cipher × Bytes :=
  ({ cipher with position := cipher.position + data.length },
    xorFrom cipher.keystream cipher.position data)

/-- The instant a session's two planes measure from, once one of them has set
it. -/
abbrev StreamOrigin := Option UInt64

/-- A presentation time, and the origin that it may have set. -/
def StreamOrigin.pts (origin : StreamOrigin) (senderNs : UInt64) : StreamOrigin × ℕ :=
  (some (origin.getD senderNs), senderNs.toNat - (origin.getD senderNs).toNat)

/-- The mirroring depacketiser for one connection. -/
structure MirrorStream where
  cipher : Cipher
  /-- Parameter sets waiting for the access unit they describe. -/
  pendingParameterSets : Option (UInt64 × Bytes)
  /-- The origin shared with this session's audio plane. -/
  origin : StreamOrigin
  /-- Whether the sender has told us it is suspending. -/
  suspended : Bool
  /-- Which codec the last configuration record named. -/
  codec : Option MirrorCodec

namespace MirrorStream

/-- Start a stream, measuring against `origin`. -/
def new (keystream : ℕ → UInt8) (origin : StreamOrigin) : MirrorStream where
  cipher := ⟨keystream, 0⟩
  pendingParameterSets := none
  origin := origin
  suspended := false
  codec := none

/-- The parameter sets that wait go in front of the access unit that shares
their timestamp.  With any other timestamp they are stale. -/
def framed (stream : MirrorStream) (timestamp : UInt64) (data : Bytes) : Bytes :=
  match stream.pendingParameterSets with
  | some (ts, sets) => if ts = timestamp then sets ++ data else data
  | none => data

def video (stream : MirrorStream) (header : Header) (payload : Bytes) :
    Except Failure (MirrorStream × List MirrorOutput) := do
  let (cipher, data) := stream.cipher.applyKeystream payload
  let codec := stream.codec.getD .h264
  let (data, keyframe) ← toAnnexB data codec
  let (origin, pts) := stream.origin.pts header.timestamp
  pure ({ stream with cipher := cipher, pendingParameterSets := none, origin := origin },
    [.frame ⟨some codec.toVideoCodec, none, pts, keyframe,
      stream.framed header.timestamp data⟩])

/-- A configuration record: the sets wait for their access unit. -/
def codecConfig (stream : MirrorStream) (header : Header) (payload : Bytes) :
    Except Failure (MirrorStream × List MirrorOutput) :=
  if payload.isEmpty then .error (.error .codecRefused)
  else
    let codec := codecOf payload
    match parameterSets codec payload with
    | .error e => .error (.error e)
    | .ok sets =>
      .ok ({ stream with
          codec := some codec
          pendingParameterSets := some (header.timestamp, sets) },
        [.geometry header.geometry])

/-- The suspend flag can ride on any packet type. -/
def noteSuspend (stream : MirrorStream) (suspending : Bool) : MirrorStream × List MirrorOutput :=
  if suspending && !stream.suspended then ({ stream with suspended := true }, [.suspend])
  else if !suspending && stream.suspended then ({ stream with suspended := false }, [.resume])
  else (stream, [])

def dispatch (stream : MirrorStream) (header : Header) (payload : Bytes) :
    Except Failure (MirrorStream × List MirrorOutput) :=
  if header.kind = PayloadType.video then stream.video header payload
  else if header.kind = PayloadType.codecConfig then stream.codecConfig header payload
  else if header.kind = PayloadType.heartbeat ∨ header.kind = PayloadType.stats then
    .ok (stream, [])
  else .error (.error (.unknownPayloadType header.kind))

/-- Dispatch one complete message.  After a failure nobody looks at the stream
again. -/
def handle (stream : MirrorStream) (header : Header) (payload : Bytes) :
    Except Failure (MirrorStream × List MirrorOutput) := do
  let noted := stream.noteSuspend header.suspending
  let (stream', out) ← noted.1.dispatch header payload
  pure (stream', noted.2 ++ out)

/-- One round of the loop in `feed`, on what the earlier rounds have not
consumed. -/
def next (stream : MirrorStream) (rest : Bytes) : Next UInt8 MirrorOutput MirrorStream Failure :=
  if rest.length < headerLen then .wait
  else
    match Header.parse rest with
    | .error e => .failed (.error e)
    | .ok header =>
      let total := headerLen + header.payloadLen
      if rest.length < total then .wait
      else
        match stream.handle header ((rest.drop headerLen).take header.payloadLen) with
        | .error e => .failed e
        | .ok (stream', out) => .took stream' out (rest.drop total)

end MirrorStream

/-! ## The stream as a framing -/

namespace Header

theorem parse_append {b : Bytes} (h : headerLen ≤ b.length) (more : Bytes) :
    parse (b ++ more) = parse b := by
  have hshort : ¬ b.length < headerLen := by omega
  have hlong : ¬ (b ++ more).length < headerLen := by
    rw [length_append]
    omega
  rw [parse, parse, if_neg hshort, if_neg hlong, take_append_of_le_length h]

end Header

namespace MirrorStream

variable {stream stream' : MirrorStream} {buf rest : Bytes} {out : List MirrorOutput}

/-- A round that does not wait looks only at the bytes it consumes. -/
theorem next_append (h : stream.next buf ≠ .wait) (more : Bytes) :
    stream.next (buf ++ more) = match stream.next buf with
      | .wait => .wait
      | .failed e => .failed e
      | .took stream' out rest => .took stream' out (rest ++ more) := by
  by_cases hshort : buf.length < headerLen
  · exact absurd (if_pos hshort) h
  have hlong : ¬ (buf ++ more).length < headerLen := by
    rw [length_append]
    omega
  have hbuf := h
  rw [next, if_neg hshort] at hbuf
  rw [next, next, if_neg hshort, if_neg hlong, Header.parse_append (Nat.le_of_not_lt hshort)]
  cases hheader : Header.parse buf with
  | error e => rfl
  | ok header =>
    simp only [hheader] at hbuf ⊢
    by_cases hpart : buf.length < headerLen + header.payloadLen
    · exact absurd (if_pos hpart) hbuf
    have hwhole : ¬ (buf ++ more).length < headerLen + header.payloadLen := by
      rw [length_append]
      omega
    have hpayload : ((buf ++ more).drop headerLen).take header.payloadLen =
        (buf.drop headerLen).take header.payloadLen := by
      rw [drop_append_of_le_length (Nat.le_of_not_lt hshort),
        take_append_of_le_length (by rw [length_drop]; omega)]
    rw [if_neg hpart, if_neg hwhole, hpayload,
      drop_append_of_le_length (Nat.le_of_not_lt hpart)]
    cases stream.handle header ((buf.drop headerLen).take header.payloadLen) <;> rfl

theorem length_rest (h : stream.next buf = .took stream' out rest) : rest.length < buf.length := by
  rw [next] at h
  split at h
  · cases h
  next hlong =>
    split at h
    · cases h
    · dsimp only at h
      split at h
      · cases h
      · split at h
        · cases h
        · cases h
          rw [length_drop]
          have : headerLen = 128 := rfl
          omega

/-- The depacketiser cuts messages off the stream. -/
def framing : Framing UInt8 MirrorOutput MirrorStream Failure where
  next := next
  shrinks := length_rest
  took_append := fun {_ _ _ _ _} h more => by rw [next_append (by simp [h]), h]
  failed_append := fun {_ _ _} h more => by rw [next_append (by simp [h]), h]

/-- Consume as many complete messages as `buf` holds: the stream, what is left
of the buffer, and the outputs, which a failure loses. -/
def feed (stream : MirrorStream) (buf : Bytes) :
    Except Failure (MirrorStream × Bytes × List MirrorOutput) :=
  match framing.drain stream buf with
  | (out, .running stream' rest) => .ok (stream', rest, out)
  | (_, .broken e) => .error e

/-- The connection's loop: append what was read and feed it.  It ends at a
failure. -/
def feedChunks (stream : MirrorStream) (buf : Bytes) :
    List Bytes → Except Failure (MirrorStream × Bytes × List MirrorOutput)
  | [] => .ok (stream, buf, [])
  | chunk :: chunks => do
      let (stream', rest, out) ← stream.feed (buf ++ chunk)
      let (stream'', rest', tail) ← feedChunks stream' rest chunks
      pure (stream'', rest', out ++ tail)

/-- As long as nothing fails, the loop is the one of any receiver that cuts
messages off a stream. -/
theorem feedChunks_of_feedAll {chunks : List Bytes}
    (h : framing.feedAll (.running stream buf) chunks = (out, .running stream' rest)) :
    stream.feedChunks buf chunks = .ok (stream', rest, out) := by
  induction chunks generalizing stream buf out with
  | nil => cases h; rfl
  | cons chunk chunks ih =>
    rw [Framing.feedAll, Framing.feed] at h
    rw [feedChunks, feed]
    cases hdrain : framing.drain stream (buf ++ chunk) with
    | mk first state =>
      rw [hdrain] at h
      obtain ⟨hout, hend⟩ := Prod.mk.inj h
      cases state with
      | running middle held =>
        have htail := ih (Prod.ext rfl hend)
        simp only [ok_bind, htail, ← hout]
        rfl
      | broken e =>
        -- a stream that broke does not run again
        have hbroken (chunks : List Bytes) :
            (framing.feedAll (.broken e) chunks).2 = .broken e := by
          induction chunks with
          | nil => rfl
          | cons _ _ ih => exact ih
        cases (hbroken chunks).symm.trans hend

end MirrorStream

end Castaway.AirPlay
