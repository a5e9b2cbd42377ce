import Castaway.Lib.Result
import Castaway.MirrorIn.Assemble
import Mathlib.Algebra.Order.Group.Unbundled.Abs
import Mathlib.Data.List.Nodup
import Mathlib.Data.List.SplitBy

/-!
# A stream through the track assembler

A stream is cut into units, the maximal runs of one timestamp.  Each unit should
come out as one frame (`expected`).  It does not where a packet is marked inside
its unit (`Whole`), nor where a unit that lost its marker is followed by a
packet that completes the next one (`Apart`): then `push` has two frames to
return, and returns the second.

## Strategy

The assembler is followed through one unit after the other.  `scan` is what one
unit does to it, and `frames` what a list of units makes it emit
(`emitted_units`).
-/

namespace Castaway.MirrorIn

open Castaway.Core (AudioCodec EncodedFrame VideoCodec)
open List

variable (depacketize : Bytes → Option Bytes) (codec : MirrorCodec)

/-- A packet of the stream, with its sender's full count of ticks. -/
structure Packet where
  ticks : ℤ
  marker : Bool
  payload : Bytes
  deriving DecidableEq

namespace Packet

def timestamp (p : Packet) : UInt32 := UInt32.ofInt p.ticks

/-- What the depacketizer makes of a packet: `none` where there is nothing to
depacketize or it refuses. -/
def chunk (p : Packet) : Option Bytes := if p.payload = [] then none else depacketize p.payload

def bytes (p : Packet) : Bytes := (p.chunk depacketize).getD []

def Closes (p : Packet) : Prop :=
  (p.chunk depacketize).isSome ∧ (p.marker = true ∨ codec.isVideo = false)

instance (p : Packet) : Decidable (p.Closes depacketize codec) :=
  inferInstanceAs (Decidable (_ ∧ _))

end Packet

/-! ## The stream and its frames -/

def sameUnit (p q : Packet) : Bool := p.ticks == q.ticks

def units (packets : List Packet) : List (List Packet) := packets.splitBy sameUnit

def media (packets : List Packet) : List Packet := packets.filter (·.payload ≠ [])

def taken (packets : List Packet) : List Packet :=
  packets.filter fun p => (p.chunk depacketize).isSome

def unitBytes (unit : List Packet) : Bytes := unit.flatMap (·.bytes depacketize)

/-- The frame of `data`, `ticks` after the first packet taken. -/
def frameOf (ticks : ℤ) (data : Bytes) : EncodedFrame where
  videoCodec := match codec with
    | .h264 => some .h264
    | .vp8 => some .vp8
    | .opus => none
  audioCodec := match codec with
    | .h264 | .vp8 => none
    | .opus => some .opus
  pts := (max 0 ticks).toNat * 1000000000 / codec.clockRate
  keyframe := isKeyframe codec data
  data := data

def unitTicks (unit : List Packet) : ℤ := unit.head?.elim 0 (·.ticks)

@[simp] theorem unitTicks_cons (p : Packet) (unit : List Packet) :
    unitTicks (p :: unit) = p.ticks := rfl

/-- The frame of a unit, or of one packet, unless it has no bytes. -/
def frameOfUnit (first : ℤ) (unit : List Packet) : Option EncodedFrame :=
  if unitBytes depacketize unit = [] then none
  else some (frameOf codec (unitTicks unit - first) (unitBytes depacketize unit))

/-- What should come out: for video one frame for each unit, for audio one for
each packet. -/
def expected (packets : List Packet) : List EncodedFrame :=
  match taken depacketize packets with
  | [] => []
  | first :: _ =>
    if codec.isVideo then (units packets).filterMap (frameOfUnit depacketize codec first.ticks)
    else packets.filterMap fun p => frameOfUnit depacketize codec first.ticks [p]

/-- What does: the frames returned by `push` for one packet after the other, and
then by `flush`, or `none` where a call panics. -/
def emitted (t : TrackAssembler) : List Packet → Option (List EncodedFrame)
  | [] => some t.flush.1.toList
  | p :: packets => do
    let (frame, t) ← t.push depacketize p.timestamp p.marker p.payload
    let frames ← emitted t packets
    return frame.toList ++ frames

/-! ## When they agree -/

def Contiguous (packets : List Packet) : Prop :=
  (units packets).Pairwise fun earlier later => ∀ p ∈ earlier, ∀ q ∈ later, p.ticks ≠ q.ticks

/-- Neighbours are less than 2³¹ ticks apart, among the packets that have a
payload and among those that the depacketizer takes: the others do not move the
clock. -/
structure Steady (packets : List Packet) : Prop where
  media : (media packets).IsChain fun p q => |q.ticks - p.ticks| < 2 ^ 31
  taken : (taken depacketize packets).IsChain fun p q => |q.ticks - p.ticks| < 2 ^ 31

def InRange (packets : List Packet) : Prop :=
  ∀ first ∈ (taken depacketize packets).head?, ∀ p ∈ taken depacketize packets,
    InI64 (p.ticks - first.ticks)

def openBytes (unit : List Packet) : Bytes :=
  unitBytes depacketize (unit.rtakeWhile fun p => ¬ p.Closes depacketize codec)

/-- No unit that was left open is followed by one whose first packet closes it
with bytes. -/
def Apart (packets : List Packet) : Prop :=
  (units (media packets)).IsChain fun unit next =>
    openBytes depacketize codec unit ≠ [] →
      ∀ p ∈ next.head?, p.Closes depacketize codec → p.bytes depacketize = []

/-- A packet closes its unit only where the bytes of the unit are on one side of
it. -/
def Whole (packets : List Packet) : Prop :=
  ∀ unit ∈ units (media packets), ∀ before p after, unit = before ++ p :: after →
    p.Closes depacketize codec →
      unitBytes depacketize (before ++ [p]) = [] ∨ unitBytes depacketize after = []

/-! ## One packet -/

theorem castSigned_ofInt_sub (m n : ℤ) :
    castSigned (UInt32.ofInt m - UInt32.ofInt n) = (m - n).bmod (2 ^ 32) := by
  have hsub : UInt32.ofInt m - UInt32.ofInt n = UInt32.ofInt (m - n) := by
    rw [Int.sub_eq_add_neg, UInt32.ofInt_add, UInt32.ofInt_neg, UInt32.sub_eq_add_neg]
  have hnonneg : 0 ≤ (m - n) % 2 ^ 32 := Int.emod_nonneg _ (by decide)
  rw [hsub, castSigned, UInt32.ofInt, UInt32.toBitVec_ofNat', BitVec.toInt_ofNat',
    Int.toNat_of_nonneg hnonneg]
  exact Int.emod_bmod (m - n) (2 ^ 32)

theorem bmod_of_near {d : ℤ} (h : |d| < 2 ^ 31) : d.bmod (2 ^ 32) = d := by
  rw [abs_lt] at h
  exact Int.bmod_eq_of_le (by omega) (by omega)

theorem ofInt_eq_iff {m n : ℤ} (h : |m - n| < 2 ^ 31) :
    UInt32.ofInt m = UInt32.ofInt n ↔ m = n := by
  refine ⟨fun heq => ?_, fun heq => by rw [heq]⟩
  have hzero := castSigned_ofInt_sub m n
  rw [heq, UInt32.sub_self, bmod_of_near h] at hzero
  have : castSigned 0 = 0 := rfl
  omega

namespace TrackAssembler

variable {depacketize codec} {pending : Bytes} {pendingTs : Option UInt32} {first last ticks : ℤ}

/-- The assembler once it has taken a packet: the first was at `first` and the
last one at `last`. -/
def clocked (codec : MirrorCodec) (pending : Bytes) (pendingTs : Option UInt32)
    (first last : ℤ) : TrackAssembler :=
  ⟨codec, pending, pendingTs, some (UInt32.ofInt first), last - first, some (UInt32.ofInt last)⟩

theorem advanceClock_clocked (hlast : InI64 (last - first)) (hnear : |ticks - last| < 2 ^ 31) :
    (clocked codec pending pendingTs first last).advanceClock (UInt32.ofInt ticks) =
      if InI64 (ticks - first) then some (clocked codec pending pendingTs first ticks)
      else none := by
  have hstep : castSigned (UInt32.ofInt ticks - UInt32.ofInt last) = ticks - last := by
    rw [castSigned_ofInt_sub, bmod_of_near hnear]
  have hsum : last - first + (ticks - last) = ticks - first := by omega
  by_cases hsame : last = ticks
  · subst hsame
    simp [advanceClock, clocked, hlast]
  · have hne : UInt32.ofInt last ≠ UInt32.ofInt ticks := by
      intro heq
      exact hsame ((ofInt_eq_iff hnear).mp heq.symm).symm
    simp only [advanceClock, clocked, if_pos hne, hstep, hsum, Option.getD_some]

/-- The nanoseconds, as `pts` computes them. -/
theorem pts_clocked : (clocked codec pending pendingTs first last).pts =
    (max 0 (last - first)).toNat * 1000000000 / codec.clockRate := by
  obtain ⟨ticks, hticks⟩ : ∃ ticks, ticks = (max 0 (last - first)).toNat := ⟨_, rfl⟩
  obtain ⟨rate, hrate⟩ : ∃ rate, rate = codec.clockRate := ⟨_, rfl⟩
  have hpos : 0 < rate := by
    rw [hrate]
    cases codec <;> decide
  have hmod : ticks % rate < rate := Nat.mod_lt _ hpos
  have hnanos : ticks % rate * 1000000000 / rate < 2 ^ 32 := by
    calc ticks % rate * 1000000000 / rate
        _ < 1000000000 := by
          rw [Nat.div_lt_iff_lt_mul hpos, Nat.mul_comm]
          exact Nat.mul_lt_mul_of_pos_left hmod (by decide)
        _ < 2 ^ 32 := by decide
  have hsplit : ticks * 1000000000 =
      ticks % rate * 1000000000 + rate * (ticks / rate * 1000000000) := by
    rw [← Nat.mul_assoc, ← Nat.add_mul, Nat.mod_add_div]
  rw [pts]
  simp only [clocked, max_comm _ (0 : ℤ), ← hticks, ← hrate, if_pos hnanos]
  rw [hsplit, Nat.add_mul_div_left _ _ hpos, Nat.add_comm]

def framed (codec : MirrorCodec) (ticks : ℤ) (data : Bytes) : Option EncodedFrame :=
  if data = [] then none else some (frameOf codec ticks data)

@[simp] theorem framed_nil : framed codec ticks [] = none := rfl

theorem flush_clocked : (clocked codec pending pendingTs first last).flush =
    (framed codec (last - first) pending, clocked codec [] none first last) := by
  by_cases hnil : pending = []
  · rw [hnil]
    rfl
  · rw [flush, if_neg (show (clocked codec pending pendingTs first last).pending ≠ [] from hnil),
      pts_clocked, framed, if_neg hnil]
    cases codec <;> rfl

/-- The pending unit, if there is one, is that of `ticks`. -/
def Within (ticks : ℤ) (pendingTs : Option UInt32) : Prop :=
  ∀ timestamp ∈ pendingTs, timestamp = UInt32.ofInt ticks

theorem finish_within {t : TrackAssembler} (h : Within ticks t.pendingTs) :
    t.finish (UInt32.ofInt ticks) = (none, t) := by
  rw [finish, if_neg]
  cases hts : t.pendingTs with
  | none => simp
  | some timestamp => simp [h timestamp hts]

/-- The pending unit of another timestamp is finished first. -/
theorem push_clocked {p : Packet} (hpayload : p.payload ≠ [])
    (hother : pending ≠ [] → ∃ timestamp ∈ pendingTs, timestamp ≠ p.timestamp) :
    ∃ ts, Within p.ticks ts ∧
      (clocked codec pending pendingTs first last).push depacketize p.timestamp p.marker p.payload =
        ((clocked codec [] ts first last).push depacketize p.timestamp p.marker p.payload).map
          fun r => (r.1.or (framed codec (last - first) pending), r.2) := by
  have hwithin (ts : Option UInt32) (h : Within p.ticks ts) :
      (clocked codec [] ts first last).finish p.timestamp =
        (none, clocked codec [] ts first last) :=
    finish_within h
  obtain ⟨ts, hts, hfinish⟩ : ∃ ts, Within p.ticks ts ∧
      (clocked codec pending pendingTs first last).finish p.timestamp =
        (framed codec (last - first) pending, clocked codec [] ts first last) := by
    by_cases hdiffers : ∃ timestamp ∈ pendingTs, timestamp ≠ p.timestamp
    · refine ⟨none, (fun timestamp h => nomatch h), ?_⟩
      obtain ⟨timestamp, hmem, hne⟩ := hdiffers
      rw [finish, if_pos, flush_clocked]
      show pendingTs.any _ = true
      rw [hmem]
      simpa using hne
    · have hnil : pending = [] := by
        by_contra hne
        exact hdiffers (hother hne)
      have hsame : Within p.ticks pendingTs := by
        intro timestamp h
        by_contra hne
        exact hdiffers ⟨timestamp, h, hne⟩
      rw [hnil]
      exact ⟨pendingTs, hsame, hwithin pendingTs hsame⟩
  refine ⟨ts, hts, ?_⟩
  rw [push, push, if_neg hpayload, if_neg hpayload, hfinish, hwithin ts hts]
  cases depacketize p.payload with
  | none => rfl
  | some chunk =>
    simp only
    cases (clocked codec [] ts first last).advanceClock p.timestamp with
    | none => rfl
    | some t =>
      simp only
      split
      · simp
      · simp

/-- A packet of the unit that is pending, or of a new one where none is. -/
theorem push_within {p : Packet} (hpayload : p.payload ≠ []) (hts : Within p.ticks pendingTs)
    (hlast : InI64 (last - first))
    (hnear : (p.chunk depacketize).isSome → |p.ticks - last| < 2 ^ 31) :
    (clocked codec pending pendingTs first last).push depacketize p.timestamp p.marker p.payload =
      match p.chunk depacketize with
      | none => some (none, clocked codec pending pendingTs first last)
      | some chunk =>
        if InI64 (p.ticks - first) then
          if p.Closes depacketize codec then
            some (framed codec (p.ticks - first) (pending ++ chunk),
              clocked codec [] none first p.ticks)
          else some (none, clocked codec (pending ++ chunk) (some p.timestamp) first p.ticks)
        else none := by
  have hchunk : p.chunk depacketize = depacketize p.payload := if_neg hpayload
  have hfinish : (clocked codec pending pendingTs first last).finish p.timestamp =
      (none, clocked codec pending pendingTs first last) := finish_within hts
  rw [push, if_neg hpayload, hfinish]
  simp only [hchunk, Packet.Closes] at hnear ⊢
  cases hgot : depacketize p.payload with
  | none => rfl
  | some chunk =>
    have hadvance : (clocked codec pending pendingTs first last).advanceClock p.timestamp = _ :=
      advanceClock_clocked hlast (hnear (by rw [hgot]; rfl))
    simp only [hadvance]
    by_cases hrange : InI64 (p.ticks - first)
    · have hcloses : (p.marker || !codec.isVideo) = true ↔
          p.marker = true ∨ codec.isVideo = false := by simp
      simp only [if_pos hrange, Option.isSome_some, true_and]
      show (if (p.marker || !codec.isVideo) = true then
          some (
            (clocked codec (pending ++ chunk) (some p.timestamp) first p.ticks).flush.1.or none,
            (clocked codec (pending ++ chunk) (some p.timestamp) first p.ticks).flush.2)
        else some (none, clocked codec (pending ++ chunk) (some p.timestamp) first p.ticks)) = _
      simp only [flush_clocked, Option.or_none, hcloses]
    · simp only [if_neg hrange]

/-- A packet that is not taken leaves an assembler with nothing pending as it
is. -/
theorem push_ignored {t : TrackAssembler} {p : Packet} (hchunk : p.chunk depacketize = none)
    (hts : t.pendingTs = none) :
    t.push depacketize p.timestamp p.marker p.payload = some (none, t) := by
  by_cases hpayload : p.payload = []
  · exact if_pos hpayload
  · have hrefused : depacketize p.payload = none := (if_neg hpayload).symm.trans hchunk
    have hfinish : t.finish p.timestamp = (none, t) := by simp [finish, hts]
    rw [push, if_neg hpayload, hfinish]
    simp only [hrefused]

/-- Up to the first packet that is taken, the assembler is as if that one had
already been seen. -/
theorem push_new {p : Packet} (hchunk : (p.chunk depacketize).isSome) :
    (new codec).push depacketize p.timestamp p.marker p.payload =
      (clocked codec [] none p.ticks p.ticks).push depacketize p.timestamp p.marker p.payload := by
  have hadvance : (clocked codec [] none p.ticks p.ticks).advanceClock p.timestamp =
      some (clocked codec [] none p.ticks p.ticks) := by
    simp [advanceClock, clocked, Packet.timestamp]
  have hnew : (new codec).advanceClock p.timestamp =
      some (clocked codec [] none p.ticks p.ticks) := by
    have hzero : castSigned 0 = 0 := rfl
    simp [advanceClock, new, clocked, Packet.timestamp, hzero]
  have hpayload : p.payload ≠ [] := by
    intro hnil
    rw [Packet.chunk, if_pos hnil] at hchunk
    cases hchunk
  rw [Packet.chunk, if_neg hpayload] at hchunk
  rw [push, push, if_neg hpayload, if_neg hpayload]
  simp only [finish, new, clocked, Option.any_none, Bool.false_eq_true, if_false]
  cases hgot : depacketize p.payload with
  | none =>
    rw [hgot] at hchunk
    cases hchunk
  | some chunk =>
    simp only [new, clocked] at hadvance hnew
    simp only [hadvance, hnew]

end TrackAssembler

/-! ## One unit -/

section Units

open TrackAssembler

variable {depacketize codec} {packets : List Packet} {first last ticks : ℤ}

theorem taken_cons_of_isSome {p : Packet} (h : (p.chunk depacketize).isSome) :
    taken depacketize (p :: packets) = p :: taken depacketize packets :=
  filter_cons_of_pos h

theorem taken_cons_of_eq_none {p : Packet} (h : p.chunk depacketize = none) :
    taken depacketize (p :: packets) = taken depacketize packets :=
  filter_cons_of_neg (by simp [h])

theorem emitted_cons (t : TrackAssembler) (p : Packet) (packets : List Packet) :
    emitted depacketize t (p :: packets) =
      (t.push depacketize p.timestamp p.marker p.payload).bind fun r =>
        (emitted depacketize r.2 packets).map (r.1.toList ++ ·) := by
  rw [emitted]
  cases t.push depacketize p.timestamp p.marker p.payload with
  | none => rfl
  | some r => cases h : emitted depacketize r.2 packets <;> simp [h]

theorem emitted_media (t : TrackAssembler) (packets : List Packet) :
    emitted depacketize t (media packets) = emitted depacketize t packets := by
  induction packets generalizing t with
  | nil => rfl
  | cons p packets ih =>
    by_cases hpayload : p.payload = []
    · have hpush : t.push depacketize p.timestamp p.marker p.payload = some (none, t) :=
        if_pos hpayload
      have hmedia : media (p :: packets) = media packets := by simp [media, hpayload]
      rw [hmedia, ih, emitted_cons, hpush]
      simp
    · have hmedia : media (p :: packets) = p :: media packets := by simp [media, hpayload]
      rw [hmedia, emitted_cons, emitted_cons]
      simp only [ih]

theorem emitted_new_of_taken {p : Packet} {rest : List Packet}
    (h : taken depacketize packets = p :: rest) : emitted depacketize (new codec) packets =
      emitted depacketize (clocked codec [] none p.ticks p.ticks) packets := by
  induction packets with
  | nil => cases h
  | cons q packets ih =>
    rw [emitted_cons, emitted_cons]
    by_cases hchunk : (q.chunk depacketize).isSome
    · rw [taken_cons_of_isSome hchunk] at h
      obtain rfl : q = p := (cons.inj h).1
      rw [push_new hchunk]
    · rw [Option.not_isSome_iff_eq_none] at hchunk
      rw [taken_cons_of_eq_none hchunk] at h
      rw [push_ignored hchunk rfl, push_ignored hchunk rfl]
      simp only [Option.bind_some, ih h]

theorem emitted_new_of_nil (h : taken depacketize packets = []) :
    emitted depacketize (new codec) packets = some [] := by
  induction packets with
  | nil => rfl
  | cons q packets ih =>
    cases hchunk : q.chunk depacketize with
    | none =>
      rw [taken_cons_of_eq_none hchunk] at h
      rw [emitted_cons, push_ignored hchunk rfl]
      simp [ih h]
    | some chunk =>
      rw [taken_cons_of_isSome (by rw [hchunk]; rfl)] at h
      cases h

def piece (data : Bytes) : List Bytes := if data = [] then [] else [data]

@[simp] theorem piece_nil : piece [] = [] := rfl

theorem toList_framed (codec : MirrorCodec) (ticks : ℤ) (data : Bytes) :
    (framed codec ticks data).toList = (piece data).map (frameOf codec ticks) := by
  rw [framed, piece]
  split <;> rfl

/-- What one unit does to the bytes that are pending: the pieces that are
closed, and what stays open. -/
def scan (depacketize : Bytes → Option Bytes) (codec : MirrorCodec) (pending : Bytes) :
    List Packet → List Bytes × Bytes
  | [] => ([], pending)
  | p :: unit =>
    if p.Closes depacketize codec then
      (piece (pending ++ p.bytes depacketize) ++ (scan depacketize codec [] unit).1,
        (scan depacketize codec [] unit).2)
    else scan depacketize codec (pending ++ p.bytes depacketize) unit

/-- A unit in the assembler, begun or not. -/
structure Holds (pending : Bytes) (pendingTs : Option UInt32) (last ticks : ℤ) : Prop where
  within : Within ticks pendingTs
  begun : pending ≠ [] → pendingTs = some (UInt32.ofInt ticks) ∧ last = ticks

/-- The clock can follow a unit at `ticks`. -/
structure Follows (first last ticks : ℤ) : Prop where
  before : InI64 (last - first)
  near : |ticks - last| < 2 ^ 31
  range : InI64 (ticks - first)

theorem Follows.self (h : Follows first last ticks) : Follows first ticks ticks :=
  ⟨h.range, by simp, h.range⟩

theorem emitted_within {unit rest : List Packet} {pending : Bytes} {pendingTs : Option UInt32}
    (hunit : ∀ p ∈ unit, p.ticks = ticks ∧ p.payload ≠ [])
    (hholds : Holds pending pendingTs last ticks) (hlast : InI64 (last - first))
    (hfollows : taken depacketize unit ≠ [] → Follows first last ticks) :
    ∃ pendingTs' last', Holds (scan depacketize codec pending unit).2 pendingTs' last' ticks ∧
      last' = (if taken depacketize unit = [] then last else ticks) ∧
      emitted depacketize (clocked codec pending pendingTs first last) (unit ++ rest) =
        (emitted depacketize (clocked codec (scan depacketize codec pending unit).2 pendingTs'
          first last') rest).map
            ((scan depacketize codec pending unit).1.map (frameOf codec (ticks - first)) ++ ·) := by
  induction unit generalizing pending pendingTs last with
  | nil => exact ⟨pendingTs, last, hholds, rfl, by simp [scan]⟩
  | cons p unit ih =>
    obtain ⟨hticks, hpayload⟩ := hunit p mem_cons_self
    have hrest : ∀ q ∈ unit, q.ticks = ticks ∧ q.payload ≠ [] := fun q hq =>
      hunit q (mem_cons_of_mem _ hq)
    cases hchunk : p.chunk depacketize with
    | none =>
      have hpush : (clocked codec pending pendingTs first last).push depacketize p.timestamp
          p.marker p.payload = _ :=
        push_within hpayload (hticks ▸ hholds.within) hlast (fun h => by
          rw [hchunk] at h
          cases h)
      rw [hchunk] at hpush
      have htaken : taken depacketize (p :: unit) = taken depacketize unit :=
        taken_cons_of_eq_none hchunk
      have hscan : scan depacketize codec pending (p :: unit) =
          scan depacketize codec pending unit := by
        simp [scan, Packet.Closes, Packet.bytes, hchunk]
      rw [htaken] at hfollows ⊢
      rw [hscan, cons_append, emitted_cons, hpush]
      obtain ⟨pendingTs', last', hholds', hlast', hemitted⟩ := ih hrest hholds hlast hfollows
      refine ⟨pendingTs', last', hholds', hlast', ?_⟩
      simp [hemitted, Function.comp_def]
    | some chunk =>
      have htaken : taken depacketize (p :: unit) ≠ [] := by
        rw [taken_cons_of_isSome (by rw [hchunk]; rfl)]
        exact cons_ne_nil _ _
      have hclock := hfollows htaken
      have hbytes : p.bytes depacketize = chunk := by rw [Packet.bytes, hchunk]; rfl
      have hpush : (clocked codec pending pendingTs first last).push depacketize p.timestamp
          p.marker p.payload = _ :=
        push_within hpayload (hticks ▸ hholds.within) hlast (fun _ => by
          rw [hticks]
          exact hclock.near)
      rw [hchunk, hticks] at hpush
      simp only [if_pos hclock.range] at hpush
      rw [cons_append, emitted_cons, if_neg htaken]
      by_cases hcloses : p.Closes depacketize codec
      · rw [if_pos hcloses] at hpush
        have hnothing : Holds [] none ticks ticks :=
          ⟨fun timestamp h => (nomatch h), fun h => absurd rfl h⟩
        obtain ⟨pendingTs', last', hholds', hlast', hemitted⟩ :=
          ih hrest hnothing hclock.range (fun _ => hclock.self)
        have hscan : scan depacketize codec pending (p :: unit) =
            (piece (pending ++ chunk) ++ (scan depacketize codec [] unit).1,
              (scan depacketize codec [] unit).2) := by rw [scan, if_pos hcloses, hbytes]
        rw [hscan]
        refine ⟨pendingTs', last', hholds', by simpa using hlast', ?_⟩
        rw [hpush]
        simp [hemitted, toList_framed, Function.comp_def]
      · rw [if_neg hcloses] at hpush
        have hbegun : Holds (pending ++ chunk) (some p.timestamp) ticks ticks := by
          rw [Packet.timestamp, hticks]
          exact ⟨fun timestamp h => (Option.mem_some_iff.mp h).symm, fun _ => ⟨rfl, rfl⟩⟩
        obtain ⟨pendingTs', last', hholds', hlast', hemitted⟩ :=
          ih hrest hbegun hclock.range (fun _ => hclock.self)
        have hscan : scan depacketize codec pending (p :: unit) =
            scan depacketize codec (pending ++ chunk) unit := by
          rw [scan, if_neg hcloses, hbytes]
        rw [hscan]
        refine ⟨pendingTs', last', hholds', by simpa using hlast', ?_⟩
        rw [hpush]
        simp [hemitted, Function.comp_def]

/-! ## One unit after the other -/

/-- What comes out of an assembler that follows a list of units.  A pending unit
is lost where the next packet closes with bytes of its own. -/
def frames (depacketize : Bytes → Option Bytes) (codec : MirrorCodec) (first : ℤ) :
    Bytes → ℤ → List (List Packet) → List EncodedFrame
  | pending, last, [] => (piece pending).map (frameOf codec (last - first))
  | pending, last, [] :: units => frames depacketize codec first pending last units
  | pending, last, (p :: unit) :: units =>
    (if p.Closes depacketize codec ∧ p.bytes depacketize ≠ [] then []
      else (piece pending).map (frameOf codec (last - first))) ++
    (scan depacketize codec [] (p :: unit)).1.map (frameOf codec (p.ticks - first)) ++
    frames depacketize codec first (scan depacketize codec [] (p :: unit)).2 p.ticks units

/-- Where nothing is pending, the last packet does not matter. -/
theorem frames_nil (first last last' : ℤ) (units : List (List Packet)) :
    frames depacketize codec first [] last units =
      frames depacketize codec first [] last' units := by
  induction units with
  | nil => simp only [frames, piece_nil, map_nil]
  | cons unit units ih =>
    cases unit with
    | nil => exact ih
    | cons p unit => simp only [frames, piece_nil, map_nil]

/-- A list of units, one timestamp each and no two neighbours of the same. -/
structure Units (units : List (List Packet)) : Prop where
  nonempty : [] ∉ units
  payload : ∀ unit ∈ units, ∀ p ∈ unit, p.payload ≠ []
  ticks : ∀ unit ∈ units, ∀ p ∈ unit, ∀ q ∈ unit, p.ticks = q.ticks
  apart : units.IsChain fun unit next => ∀ p ∈ unit, ∀ q ∈ next, p.timestamp ≠ q.timestamp

theorem Units.tail {unit : List Packet} {units : List (List Packet)} (h : Units (unit :: units)) :
    Units units where
  nonempty := fun hmem => h.nonempty (mem_cons_of_mem _ hmem)
  payload := fun u hu => h.payload u (mem_cons_of_mem _ hu)
  ticks := fun u hu => h.ticks u (mem_cons_of_mem _ hu)
  apart := h.apart.tail

theorem Units.head_ne {unit : List Packet} {units : List (List Packet)}
    (h : Units (unit :: units)) {p q : Packet} (hp : p ∈ unit) (hq : q ∈ units.flatten.head?) :
    q.timestamp ≠ p.timestamp := by
  cases units with
  | nil => cases hq
  | cons next units =>
    cases next with
    | nil => exact absurd (mem_cons_of_mem _ mem_cons_self) h.nonempty
    | cons r next =>
      obtain rfl : r = q := by simpa using hq
      exact (h.apart.rel_head? rfl p hp r mem_cons_self).symm

/-- The first packet of a unit finishes what was pending, or loses it. -/
theorem emitted_start {p : Packet} {rest : List Packet} {pending : Bytes}
    {pendingTs : Option UInt32} (hpayload : p.payload ≠ []) (hlast : InI64 (last - first))
    (hfollows : (p.chunk depacketize).isSome → Follows first last p.ticks)
    (hother : pending ≠ [] → ∃ timestamp ∈ pendingTs, timestamp ≠ p.timestamp) :
    ∃ pendingTs', Within p.ticks pendingTs' ∧
      emitted depacketize (clocked codec pending pendingTs first last) (p :: rest) =
        (emitted depacketize (clocked codec [] pendingTs' first last) (p :: rest)).map
          ((if p.Closes depacketize codec ∧ p.bytes depacketize ≠ [] then []
            else (piece pending).map (frameOf codec (last - first))) ++ ·) := by
  obtain ⟨pendingTs', hwithin, hpush⟩ :=
    @push_clocked depacketize codec pending pendingTs first last p hpayload hother
  refine ⟨pendingTs', hwithin, ?_⟩
  have hinside : (clocked codec [] pendingTs' first last).push depacketize p.timestamp
      p.marker p.payload = _ := push_within hpayload hwithin hlast fun h => (hfollows h).near
  rw [emitted_cons, emitted_cons, hpush]
  cases hchunk : p.chunk depacketize with
  | none =>
    have hcloses : ¬ p.Closes depacketize codec := fun h => by
      rw [Packet.Closes, hchunk] at h
      exact absurd h.1 (by simp)
    rw [hchunk] at hinside
    rw [hinside]
    simp [hcloses, toList_framed]
  | some chunk =>
    have hbytes : p.bytes depacketize = chunk := by rw [Packet.bytes, hchunk]; rfl
    have hrange := (hfollows (by rw [hchunk]; rfl)).range
    rw [hchunk] at hinside
    simp only [if_pos hrange] at hinside
    rw [hinside]
    by_cases hcloses : p.Closes depacketize codec
    · by_cases hnil : chunk = []
      · simp [hcloses, hbytes, hnil, toList_framed]
      · simp [hcloses, hbytes, hnil, framed, Function.comp_def]
    · simp [hcloses, toList_framed]

theorem taken_append (xs ys : List Packet) :
    taken depacketize (xs ++ ys) = taken depacketize xs ++ taken depacketize ys :=
  filter_append xs ys

theorem emitted_units {units : List (List Packet)} (hunits : Units units) {pending : Bytes}
    {pendingTs : Option UInt32} (hpending : pending ≠ [] → pendingTs = some (UInt32.ofInt last))
    (hhead : pending ≠ [] → ∀ p ∈ units.flatten.head?, p.timestamp ≠ UInt32.ofInt last)
    (hlast : InI64 (last - first))
    (hrange : ∀ p ∈ taken depacketize units.flatten, InI64 (p.ticks - first))
    (hnear : (last :: (taken depacketize units.flatten).map (·.ticks)).IsChain
      fun m n => |n - m| < 2 ^ 31) :
    emitted depacketize (clocked codec pending pendingTs first last) units.flatten =
      some (frames depacketize codec first pending last units) := by
  induction units generalizing pending pendingTs last with
  | nil =>
    rw [flatten_nil, emitted, frames, flush_clocked, toList_framed]
  | cons unit units ih =>
    cases unit with
    | nil => exact absurd mem_cons_self hunits.nonempty
    | cons p unit =>
      have hsame : ∀ q ∈ p :: unit, q.ticks = p.ticks ∧ q.payload ≠ [] := fun q hq =>
        ⟨hunits.ticks _ mem_cons_self q hq p mem_cons_self,
          hunits.payload _ mem_cons_self q hq⟩
      rw [flatten_cons, taken_append] at hrange hnear
      rw [flatten_cons] at hhead ⊢
      -- the clock goes from the last packet taken to this unit, if it has one that is taken
      have hfollows : taken depacketize (p :: unit) ≠ [] → Follows first last p.ticks := by
        intro hne
        obtain ⟨q, rest, htaken⟩ := exists_cons_of_ne_nil hne
        have hq : q ∈ taken depacketize (p :: unit) := htaken ▸ mem_cons_self
        have hticks : q.ticks = p.ticks := (hsame q (mem_of_mem_filter hq)).1
        refine ⟨hlast, ?_, hticks ▸ hrange q (mem_append_left _ hq)⟩
        rw [htaken] at hnear
        rw [← hticks]
        exact hnear.rel_head? rfl
      have hnext : ((if taken depacketize (p :: unit) = [] then last else p.ticks) ::
          (taken depacketize units.flatten).map (·.ticks)).IsChain
            fun m n => |n - m| < 2 ^ 31 := by
        rcases eq_nil_or_concat (taken depacketize (p :: unit)) with
          hnil | ⟨rest, q, htaken⟩
        · rw [if_pos hnil]
          rwa [hnil] at hnear
        · have hq : q ∈ taken depacketize (p :: unit) := by simp [htaken]
          have hticks : q.ticks = p.ticks := (hsame q (mem_of_mem_filter hq)).1
          rw [if_neg (by simp [htaken]), ← hticks]
          refine hnear.suffix ⟨last :: rest.map (·.ticks), ?_⟩
          simp [htaken]
      obtain ⟨ts, hwithin, hstart⟩ := @emitted_start depacketize codec first last p
        (unit ++ units.flatten) pending pendingTs (hsame p mem_cons_self).2 hlast
        (fun h => hfollows (by rw [taken_cons_of_isSome h]; exact cons_ne_nil _ _))
        (fun hne => ⟨_, hpending hne, (hhead hne p rfl).symm⟩)
      obtain ⟨ts', last', hholds, hlast', hinside⟩ := @emitted_within depacketize codec first
        last p.ticks (p :: unit) units.flatten [] ts hsame
        ⟨hwithin, fun h => absurd rfl h⟩ hlast hfollows
      rw [cons_append] at hinside ⊢
      rw [hstart, hinside]
      obtain ⟨rest, hrest⟩ : ∃ rest, rest = (scan depacketize codec [] (p :: unit)).2 :=
        ⟨_, rfl⟩
      rw [← hrest] at hholds ⊢
      have hframes : frames depacketize codec first rest p.ticks units =
          frames depacketize codec first rest last' units := by
        by_cases hnil : rest = []
        · rw [hnil]
          exact frames_nil first p.ticks last' units
        · rw [(hholds.begun hnil).2]
      have hrange' : InI64 (last' - first) := by
        rw [hlast']
        split
        · exact hlast
        · rename_i hne
          exact (hfollows hne).range
      have hpending' (hne : rest ≠ []) : ts' = some (UInt32.ofInt last') := by
        rw [(hholds.begun hne).2]
        exact (hholds.begun hne).1
      have hhead' (hne : rest ≠ []) (q : Packet) (hq : q ∈ units.flatten.head?) :
          q.timestamp ≠ UInt32.ofInt last' := by
        rw [(hholds.begun hne).2]
        exact hunits.head_ne mem_cons_self hq
      have hemitted := ih hunits.tail hpending' hhead' hrange'
        (fun q hq => hrange q (mem_append_right _ hq)) (hlast' ▸ hnext)
      rw [hemitted, frames, ← hrest, hframes]
      simp

/-! ## The range of the clock -/

theorem finish_clocked (pending : Bytes) (pendingTs : Option UInt32) (timestamp : UInt32) :
    ∃ frame pending' pendingTs', (clocked codec pending pendingTs first last).finish timestamp =
      (frame, clocked codec pending' pendingTs' first last) := by
  rw [finish]
  split
  · exact ⟨_, _, _, flush_clocked⟩
  · exact ⟨_, _, _, rfl⟩

/-- Whatever is pending, a packet that is taken moves the clock, or the
assembler panics. -/
theorem push_clock (pending : Bytes) (pendingTs : Option UInt32) (p : Packet)
    (hlast : InI64 (last - first))
    (hnear : (p.chunk depacketize).isSome → |p.ticks - last| < 2 ^ 31)
    {r : Option EncodedFrame × TrackAssembler}
    (hpush : (clocked codec pending pendingTs first last).push depacketize p.timestamp p.marker
      p.payload = some r) :
    ∃ pending' pendingTs', r.2 = clocked codec pending' pendingTs' first
        (if (p.chunk depacketize).isSome then p.ticks else last) ∧
      ((p.chunk depacketize).isSome → InI64 (p.ticks - first)) := by
  by_cases hpayload : p.payload = []
  · rw [push, if_pos hpayload] at hpush
    cases hpush
    exact ⟨pending, pendingTs, by simp [Packet.chunk, hpayload], by simp [Packet.chunk, hpayload]⟩
  · obtain ⟨frame, pending', pendingTs', hfinish⟩ :=
      @finish_clocked codec first last pending pendingTs p.timestamp
    have hchunk : p.chunk depacketize = depacketize p.payload := if_neg hpayload
    rw [push, if_neg hpayload, hfinish] at hpush
    rw [hchunk] at hnear ⊢
    cases hgot : depacketize p.payload with
    | none =>
      rw [hgot] at hpush
      cases hpush
      exact ⟨pending', pendingTs', rfl, fun h => by cases h⟩
    | some chunk =>
      have hadvance :
          (clocked codec pending' pendingTs' first last).advanceClock p.timestamp = _ :=
        advanceClock_clocked hlast (hnear (by rw [hgot]; rfl))
      simp only [hgot, hadvance] at hpush
      by_cases hrange : InI64 (p.ticks - first)
      · simp only [if_pos hrange] at hpush
        have hflush := @flush_clocked codec (pending' ++ chunk) (some p.timestamp) first p.ticks
        split at hpush
        · have hr := congrArg Prod.snd (Option.some.inj hpush)
          exact ⟨[], none, hr.symm.trans (congrArg Prod.snd hflush), fun _ => hrange⟩
        · have hr := congrArg Prod.snd (Option.some.inj hpush)
          exact ⟨pending' ++ chunk, some p.timestamp, hr.symm, fun _ => hrange⟩
      · simp only [if_neg hrange] at hpush
        cases hpush

/-- The assembler comes through only where the clock stays in its range. -/
theorem inI64_of_emitted {pending : Bytes} {pendingTs : Option UInt32}
    (hlast : InI64 (last - first))
    (hnear : (last :: (taken depacketize packets).map (·.ticks)).IsChain
      fun m n => |n - m| < 2 ^ 31)
    {out : List EncodedFrame}
    (h : emitted depacketize (clocked codec pending pendingTs first last) packets = some out) :
    ∀ p ∈ taken depacketize packets, InI64 (p.ticks - first) := by
  induction packets generalizing pending pendingTs last out with
  | nil => simp [taken]
  | cons p packets ih =>
    rw [emitted_cons] at h
    obtain ⟨r, hpush, hrest⟩ := Option.bind_eq_some_iff.mp h
    obtain ⟨out', hout, -⟩ := Option.map_eq_some_iff.mp hrest
    by_cases hchunk : (p.chunk depacketize).isSome
    · rw [taken_cons_of_isSome hchunk] at hnear ⊢
      obtain ⟨pending', pendingTs', hr, hrange⟩ := push_clock pending pendingTs p hlast
        (fun _ => hnear.rel_head? rfl) hpush
      rw [hr, if_pos hchunk] at hout
      intro q hq
      rcases mem_cons.mp hq with rfl | hq
      · exact hrange hchunk
      · exact ih (hrange hchunk) hnear.tail hout q hq
    · obtain ⟨pending', pendingTs', hr, -⟩ := push_clock pending pendingTs p hlast
        (fun hsome => absurd hsome hchunk) hpush
      rw [hr, if_neg hchunk] at hout
      rw [Option.not_isSome_iff_eq_none] at hchunk
      rw [taken_cons_of_eq_none hchunk] at hnear ⊢
      exact ih hlast hnear hout

end Units

end Castaway.MirrorIn
