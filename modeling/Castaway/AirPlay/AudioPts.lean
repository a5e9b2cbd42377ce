import Castaway.AirPlay.AudioSteps

/-!
# Where AirPlay audio lands on the timeline

`presentation` is the time a frame should have: the signed distance from the
reference, as a duration, and no less than zero.  The path that shares its
origin with the video plane gives exactly that (`place_synced`).  The path that
stands alone reads the distance without its sign, so what is serially before the
first packet lands a turn of the counter behind it (`place_alone`).
-/

namespace Castaway.AirPlay.AudioStream

open Castaway.Core (EncodedFrame)

variable {cbc : Block → Block → Bytes → Bytes} {s : AudioStream} {timestamp : UInt32} {pts : ℕ}

/-- The presentation time by the reference the stream has, in nanoseconds: the
anchor and the shared origin, or the first packet. -/
def presentation (s : AudioStream) (timestamp : UInt32) : ℤ :=
  match s.origin with
  | some origin =>
    match origin, s.anchor with
    | some origin, some anchor =>
      max 0 (((anchor.senderNs.toNat : ℤ) - origin.toNat) +
        framesToNs (serialDiff timestamp anchor.rtp) s.codec.sampleRate)
    | _, _ => 0
  | none =>
    max 0 (framesToNs (serialDiff timestamp (s.firstTimestamp.getD timestamp))
      s.codec.sampleRate)

def AnchorBounded (s : AudioStream) : Prop :=
  ∀ anchor, s.anchor = some anchor → anchor.senderNs.toNat ≤ anchorLimit

theorem place_synced (hbounded : s.AnchorBounded) {origin : StreamOrigin}
    (horigin : s.origin = some origin) (h : (s.place timestamp).2 = .ok pts) :
    (pts : ℤ) = (s.place timestamp).1.presentation timestamp := by
  unfold place at h ⊢
  rw [horigin] at h ⊢
  dsimp only at h ⊢
  cases hanchor : s.anchor with
  | none => rw [hanchor] at h; cases h
  | some anchor =>
    rw [hanchor] at h
    cases h
    have hplaced := toNat_senderNsOf (hbounded anchor hanchor) timestamp s.codec.sampleRate
    simp only [presentation, StreamOrigin.pts]
    omega

theorem framesToNs_nonneg {frames : ℤ} (h : 0 ≤ frames) (sampleRate : UInt32) :
    framesToNs frames sampleRate =
      (frames.toNat * 1000000000 / (max sampleRate 1).toNat : ℕ) := by
  obtain ⟨n, rfl⟩ := Int.eq_ofNat_of_zero_le h
  rw [framesToNs, Int.toNat_natCast]
  exact_mod_cast rfl

theorem framesToNs_nonpos {frames : ℤ} (h : frames ≤ 0) (sampleRate : UInt32) :
    framesToNs frames sampleRate ≤ 0 := by
  have hneg : framesToNs frames sampleRate = -framesToNs (-frames) sampleRate := by
    rw [framesToNs, framesToNs, Int.neg_mul, Int.neg_tdiv, Int.neg_neg]
  rw [hneg, framesToNs_nonneg (by omega), Int.neg_nonpos_iff]
  exact Int.natCast_nonneg _

/-- Standing alone, the time is right from the first packet on. -/
theorem place_alone (horigin : s.origin = none) (h : (s.place timestamp).2 = .ok pts) :
    (pts : ℤ) = (s.place timestamp).1.presentation timestamp ↔
      0 ≤ serialDiff timestamp (s.firstTimestamp.getD timestamp) := by
  unfold place at h ⊢
  rw [horigin] at h ⊢
  simp only [presentation, Option.getD_some]
  cases h
  have hlt := (timestamp - s.firstTimestamp.getD timestamp).toNat_lt
  have hrate := rate_pos s.codec.sampleRate
  have hwide := (max s.codec.sampleRate 1).toNat_lt
  rw [min_eq_left (by omega)]
  by_cases hahead : 0 ≤ serialDiff timestamp (s.firstTimestamp.getD timestamp)
  · have hplain : (serialDiff timestamp (s.firstTimestamp.getD timestamp)).toNat =
        (timestamp - s.firstTimestamp.getD timestamp).toNat := by
      rw [serialDiff, if_pos (serialDiff_nonneg_iff.mp hahead)]
      rfl
    rw [framesToNs_nonneg hahead, hplain, max_eq_right (Int.natCast_nonneg _)]
    exact iff_of_true rfl hahead
  · have hbehind := framesToNs_nonpos (not_le.mp hahead).le s.codec.sampleRate
    have hhalf : 2147483648 ≤ (timestamp - s.firstTimestamp.getD timestamp).toNat := by
      rw [serialDiff_nonneg_iff] at hahead
      omega
    have hlate : 1 ≤ (timestamp - s.firstTimestamp.getD timestamp).toNat * 1000000000 /
        (max s.codec.sampleRate 1).toNat := by
      rw [Nat.le_div_iff_mul_le hrate]
      omega
    exact iff_of_false (by omega) hahead

/-! ## Runs -/

theorem place_anchor (s : AudioStream) (timestamp : UInt32) :
    (s.place timestamp).1.anchor = s.anchor := by
  unfold place
  split
  · split <;> rfl
  · rfl

theorem AnchorBounded.next (h : s.AnchorBounded) (e : AudioEvent) :
    (s.next cbc e).AnchorBounded := by
  have hhandled {carried : Option UInt32} {s' : AudioStream}
      {result : Except AudioError AudioOutput} (hs' : Handled s carried s' result) :
      s'.AnchorBounded := by
    cases hs' with
    | refused => exact h
    | synced sync hanchor =>
      intro anchor heq
      cases heq
      exact hanchor
    | stale => exact h
    | packet _ hpackaged =>
      cases hpackaged with
      | priming | duplicate | awaiting => exact h
      | output =>
        intro anchor heq
        rw [place_anchor] at heq
        exact h anchor heq
  have hstepped := stepped cbc s e
  rw [AudioStream.next]
  generalize (s.step cbc e).1 = s', (s.step cbc e).2 = result at hstepped ⊢
  cases hstepped with
  | audio datagram hs' | control datagram hs' => exact hhandled hs'
  | flushed point | video senderNs => exact h

theorem anchorBounded_run {start : AudioStream} (hstart : start.anchor = none)
    (events : List AudioEvent) : (events.foldl (next cbc) start).AnchorBounded := by
  induction events using List.reverseRecOn with
  | nil =>
    intro anchor h
    rw [List.foldl_nil, hstart] at h
    cases h
  | append_singleton events e ih =>
    rw [List.foldl_concat]
    exact ih.next e

/-- A stream as a session starts one: alone, or with an origin shared with
video. -/
def start (codec : RaopCodec) (crypto : StreamCrypto) (shared : Option StreamOrigin) :
    AudioStream :=
  { AudioStream.new codec crypto with origin := shared }

/-- A frame that comes out passed the flush and was placed by the stream as it
was, the flush and the remembered timestamps apart. -/
theorem placed_of_frame {e : AudioEvent} {sequence : UInt16} {frame : EncodedFrame}
    (h : (s.step cbc e).2 = some (.ok (.frame sequence timestamp frame))) :
    ((s.caughtUp.remember timestamp).place timestamp).2 = .ok frame.pts ∧
      s.next cbc e = ((s.caughtUp.remember timestamp).place timestamp).1 := by
  have hhandled {carried : Option UInt32} {s' : AudioStream}
      {result : Except AudioError AudioOutput} (hs' : Handled s carried s' result)
      (hresult : result = .ok (.frame sequence timestamp frame)) :
      ((s.caughtUp.remember timestamp).place timestamp).2 = .ok frame.pts ∧
        s' = ((s.caughtUp.remember timestamp).place timestamp).1 := by
    cases hs' with
    | refused | synced | stale => cases hresult
    | packet _ hpackaged =>
      cases hpackaged with
      | priming | duplicate | awaiting => cases hresult
      | output _ hplace =>
        cases hresult
        exact ⟨hplace, rfl⟩
  have hstepped := stepped cbc s e
  rw [AudioStream.next]
  generalize (s.step cbc e).1 = s', (s.step cbc e).2 = result at h hstepped ⊢
  cases hstepped with
  | audio datagram hs' | control datagram hs' => exact hhandled hs' (Option.some.inj h)
  | flushed point | video senderNs => cases h

/-- In every run, a frame lands where the reference puts it, unless the stream
stands alone and the packet is serially before the first one. -/
theorem frame_pts_iff (cbc : Block → Block → Bytes → Bytes) (codec : RaopCodec)
    (crypto : StreamCrypto) (shared : Option StreamOrigin) (events : List AudioEvent)
    (e : AudioEvent) {sequence : UInt16} {timestamp : UInt32} {frame : EncodedFrame}
    (h : ((events.foldl (next cbc) (start codec crypto shared)).step cbc e).2 =
      some (.ok (.frame sequence timestamp frame))) : (frame.pts : ℤ) =
        ((events.foldl (next cbc) (start codec crypto shared)).next cbc e).presentation timestamp ↔
      ((events.foldl (next cbc) (start codec crypto shared)).origin.isSome ∨
        0 ≤ serialDiff timestamp
          ((events.foldl (next cbc)
            (start codec crypto shared)).firstTimestamp.getD timestamp)) := by
  have hbounded := @anchorBounded_run cbc (start codec crypto shared) rfl events
  generalize events.foldl (next cbc) (start codec crypto shared) = s at h hbounded ⊢
  obtain ⟨hplace, hnext⟩ := placed_of_frame h
  rw [hnext]
  cases horigin : s.origin with
  | none =>
    rw [place_alone (s := s.caughtUp.remember timestamp) horigin hplace]
    simp only [Option.isSome_none, Bool.false_eq_true, false_or]
    rfl
  | some origin =>
    have hsynced := place_synced (s := s.caughtUp.remember timestamp) hbounded horigin hplace
    exact iff_of_true hsynced (.inl rfl)

def packetAt (sequence : UInt16) (timestamp : UInt32) : AudioEvent :=
  .audio ([0x80, 0x60] ++ putU16Be sequence ++ beBytes 4 timestamp.toNat ++ [0, 0, 0, 0] ++ [0xAA])

theorem frame_pts_iff_later :
    (10000000 : ℤ) =
        (([packetAt 0 4294967280].foldl (next fun _ _ block => block)
          (start (.pcm 48000 2) .none none)).next (fun _ _ block => block)
            (packetAt 1 464)).presentation 464 ↔
      (([packetAt 0 4294967280].foldl (next fun _ _ block => block)
          (start (.pcm 48000 2) .none none)).origin.isSome ∨
        0 ≤ serialDiff 464 (([packetAt 0 4294967280].foldl (next fun _ _ block => block)
          (start (.pcm 48000 2) .none none)).firstTimestamp.getD 464)) :=
  @frame_pts_iff (fun _ _ block => block) (.pcm 48000 2) .none none [packetAt 0 4294967280]
    (packetAt 1 464) 1 464 ⟨none, some .pcm, 10000000, false, [0xAA]⟩ (by decide +kernel)

/-- A packet eight milliseconds older than the first one lands a day later. -/
theorem olderPacket_lands_later :
    ∃ frame, (([packetAt 1 1000].foldl (next fun _ _ block => block)
        (start (.pcm 44100 2) .none none)).step (fun _ _ block => block) (packetAt 0 648)).2 =
          some (.ok (.frame 0 648 frame)) ∧
      frame.pts = 97391540680272 ∧
      (([packetAt 1 1000].foldl (next fun _ _ block => block)
        (start (.pcm 44100 2) .none none)).next (fun _ _ block => block)
          (packetAt 0 648)).presentation 648 = 0 :=
  ⟨⟨none, some .pcm, 97391540680272, false, [0xAA]⟩, by decide +kernel⟩

end Castaway.AirPlay.AudioStream
