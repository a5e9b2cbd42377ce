import Castaway.Core.Media
import Mathlib.Data.Int.Bitwise
import Mathlib.Data.List.DropRight

/-!
# Assembling a mirrored track

The packets of one track become frames: an audio packet is one, and a picture is
what came under one timestamp (`TrackAssembler.push`).  `push` returns one frame
at most, though a packet can complete two.

The 32-bit timestamp is extended to a count of ticks that starts at the first
packet the depacketizer took (`advanceClock`).
-/

namespace Castaway.MirrorIn

open Castaway.Core (AudioCodec EncodedFrame VideoCodec)

inductive MirrorCodec where
  | h264
  | vp8
  | opus
  deriving DecidableEq

namespace MirrorCodec

def clockRate : MirrorCodec → ℕ
  | h264 | vp8 => 90000
  | opus => 48000

def isVideo : MirrorCodec → Bool
  | h264 | vp8 => true
  | opus => false

end MirrorCodec

def annexbNalTypes : Bytes → List UInt8
  | a :: b :: c :: d :: rest =>
    if a = 0 ∧ b = 0 ∧ c = 1 then (d &&& 0x1f) :: annexbNalTypes rest
    else if a = 0 ∧ b = 0 ∧ c = 0 ∧ d = 1 then
      match rest with
      | [] => []
      | nal :: rest => (nal &&& 0x1f) :: annexbNalTypes rest
    else annexbNalTypes (b :: c :: d :: rest)
  | _ => []

/-- Whether an assembled access unit begins a decodable picture. -/
def isKeyframe (codec : MirrorCodec) (data : Bytes) : Bool :=
  match codec with
  | .h264 => (annexbNalTypes data).any fun nal => nal == 5 || nal == 7 || nal == 8
  | .vp8 => data.head?.any fun b => b &&& 0x01 == 0
  | .opus => true

/-- `cast_signed`. -/
def castSigned (x : UInt32) : ℤ := x.toBitVec.toInt

/-- The range of the extended clock. -/
def InI64 (ticks : ℤ) : Prop := -2 ^ 63 ≤ ticks ∧ ticks < 2 ^ 63

instance (ticks : ℤ) : Decidable (InI64 ticks) := inferInstanceAs (Decidable (_ ∧ _))

/-- `pending` is the access unit being built, `pendingTs` the timestamp it
belongs to, and `extended` the last timestamp that was taken, unwrapped against
`baseTs`. -/
structure TrackAssembler where
  codec : MirrorCodec
  pending : Bytes
  pendingTs : Option UInt32
  baseTs : Option UInt32
  extended : ℤ
  lastTs : Option UInt32
  deriving DecidableEq

namespace TrackAssembler

def new (codec : MirrorCodec) : TrackAssembler := ⟨codec, [], none, none, 0, none⟩

/-- The pending unit's presentation time, in nanoseconds. -/
def pts (t : TrackAssembler) : ℕ :=
  let ticks := (max t.extended 0).toNat
  let rate := t.codec.clockRate
  let nanos := ticks % rate * 1000000000 / rate
  ticks / rate * 1000000000 + (if nanos < 2 ^ 32 then nanos else 0)

/-- Emit whatever has accumulated, if anything. -/
def flush (t : TrackAssembler) : Option EncodedFrame × TrackAssembler :=
  if t.pending = [] then (none, { t with pendingTs := none })
  else
    let (videoCodec, audioCodec) := match t.codec with
      | .h264 => (some VideoCodec.h264, none)
      | .vp8 => (some VideoCodec.vp8, none)
      | .opus => (none, some AudioCodec.opus)
    (some {
      videoCodec, audioCodec
      pts := t.pts
      keyframe := isKeyframe t.codec t.pending
      data := t.pending },
      { t with pending := [], pendingTs := none })

/-- Extend the 32-bit clock, or `none` where the addition overflows. -/
def advanceClock (t : TrackAssembler) (timestamp : UInt32) : Option TrackAssembler :=
  let base := t.baseTs.getD timestamp
  match t.lastTs with
  | none => some { t with
      baseTs := some base
      extended := castSigned (timestamp - base)
      lastTs := some timestamp }
  | some last =>
    if last ≠ timestamp then
      let extended := t.extended + castSigned (timestamp - last)
      if InI64 extended then
        some { t with baseTs := some base, extended, lastTs := some timestamp }
      else none
    else some { t with baseTs := some base, lastTs := some timestamp }

/-- What `push` does about a pending unit of another timestamp. -/
def finish (t : TrackAssembler) (timestamp : UInt32) : Option EncodedFrame × TrackAssembler :=
  if t.pendingTs.any (· != timestamp) then t.flush else (none, t)

variable (depacketize : Bytes → Option Bytes)

/-- Feed one RTP packet.  The inner `Option` is what `push` returns, and the
outer one is `none` where it panics. -/
def push (t : TrackAssembler) (timestamp : UInt32) (marker : Bool) (payload : Bytes) :
    Option (Option EncodedFrame × TrackAssembler) :=
  if payload = [] then some (none, t)
  else
    let (finished, t) := t.finish timestamp
    match depacketize payload with
    | none => some (finished, t)
    | some chunk =>
      match t.advanceClock timestamp with
      | none => none
      | some t =>
        let t := { t with pendingTs := some timestamp, pending := t.pending ++ chunk }
        if marker || !t.codec.isVideo then some (t.flush.1.or finished, t.flush.2)
        else some (finished, t)

end TrackAssembler

end Castaway.MirrorIn
