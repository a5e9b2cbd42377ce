import Castaway.AirPlay.AudioPts

/-!
# Copies and flushes of AirPlay audio over a run

`Heard` is what came out since the last flush, kept beside the stream.  What the
stream remembers is the end of that list, after whatever it refused because the
first sync packet was not there yet (`Faithful`), and the flush is tested until
a packet at or after its point arrives.
-/

namespace Castaway.AirPlay.AudioStream

open Castaway.Core (EncodedFrame)
open List

variable {cbc : Block → Block → Bytes → Bytes} {s s' : AudioStream} {timestamp : UInt32}

/-! ## What came out -/

/-- What happened since the last flush. -/
structure Heard where
  /-- The timestamps that came out, oldest first. -/
  output : List UInt32 := []
  /-- The timestamps refused because no sync packet had come. -/
  awaited : List UInt32 := []
  /-- Where the flush said that the stream restarts. -/
  point : Option UInt32 := none
  /-- A packet at or after that point has arrived. -/
  reached : Bool := false
  deriving DecidableEq, Repr

namespace Heard

def packet (heard : Heard) (timestamp : UInt32) (result : Except AudioError AudioOutput) :
    Heard where
  output :=
    match result with
    | .ok _ => heard.output ++ [timestamp]
    | .error _ => heard.output
  awaited := if result = .error .awaitingSync then heard.awaited ++ [timestamp] else heard.awaited
  point := heard.point
  reached := heard.reached || heard.point.all (0 ≤ serialDiff timestamp ·)

/-- After a datagram, by the timestamp of the audio packet in it. -/
def datagram (heard : Heard) : Option UInt32 → Except AudioError AudioOutput → Heard
  | some timestamp, result => heard.packet timestamp result
  | none, _ => heard

def after (heard : Heard) : AudioEvent → Option (Except AudioError AudioOutput) → Heard
  | .flush point, _ => { point := point.rtp }
  | e, some result => heard.datagram e.timestamp result
  | _, none => heard

end Heard

def listen (cbc : Block → Block → Bytes → Bytes) (state : AudioStream × Heard) (e : AudioEvent) :
    AudioStream × Heard :=
  (state.1.next cbc e, state.2.after e (state.1.step cbc e).2)

/-- The stream and what was heard since the last flush, after a run. -/
def listened (cbc : Block → Block → Bytes → Bytes) (start : AudioStream)
    (events : List AudioEvent) : AudioStream × Heard :=
  events.foldl (listen cbc) (start, {})

/-! ## What is remembered -/

/-- The last timestamps, as many as the stream remembers. -/
def latest (timestamps : List UInt32) : List UInt32 :=
  timestamps.drop (timestamps.length - Delivered.window)

theorem push_latest (timestamps : List UInt32) (timestamp : UInt32) :
    Delivered.push ⟨latest timestamps⟩ timestamp = ⟨latest (timestamps ++ [timestamp])⟩ := by
  have hlength : (latest timestamps).length = min timestamps.length Delivered.window := by
    rw [latest, length_drop]
    omega
  rw [Delivered.push, hlength]
  split
  · next hfull =>
      have hnext : (timestamps ++ [timestamp]).length - Delivered.window =
          timestamps.length - Delivered.window + 1 := by
        rw [length_append, length_singleton]
        omega
      have hsome : Delivered.window ≠ 0 := by decide
      rw [latest, latest, hnext, tail_drop, drop_append_of_le_length (by omega)]
  · next hroom =>
      have hbefore : timestamps.length - Delivered.window = 0 := by omega
      have hafter : (timestamps ++ [timestamp]).length - Delivered.window = 0 := by
        rw [length_append, length_singleton]
        omega
      rw [latest, latest, hbefore, hafter]
      rfl

theorem mem_of_mem_latest {timestamps : List UInt32} (h : timestamp ∈ latest timestamps) :
    timestamp ∈ timestamps :=
  mem_of_mem_drop h

/-- What came before does not push out what is latest. -/
theorem mem_latest_append {earlier timestamps : List UInt32} (h : timestamp ∈ latest timestamps) :
    timestamp ∈ latest (earlier ++ timestamps) := by
  rw [latest] at h ⊢
  rw [drop_append, mem_append]
  right
  have hle : (earlier ++ timestamps).length - Delivered.window - earlier.length ≤
      timestamps.length - Delivered.window := by
    rw [length_append]
    omega
  exact drop_subset_drop_left _ hle h

/-! ## What a run keeps -/

/-- The stream remembers what was heard and tests the flush that was heard. -/
structure Faithful (s : AudioStream) (heard : Heard) : Prop where
  remembered : s.delivered = ⟨latest (heard.awaited ++ heard.output)⟩
  waiting : s.origin.isSome → s.anchor = none → heard.output = []
  flushed : s.flush.bind (·.rtp) = if heard.reached then none else heard.point

theorem place_keeps (s : AudioStream) (timestamp : UInt32) :
    (s.place timestamp).1.delivered = s.delivered ∧
      (s.place timestamp).1.flush = s.flush ∧
      (s.place timestamp).1.origin.isSome = s.origin.isSome := by
  unfold place
  split
  · next origin horigin =>
      split
      · exact ⟨rfl, rfl, rfl⟩
      · rw [horigin]
        exact ⟨rfl, rfl, rfl⟩
  · exact ⟨rfl, rfl, rfl⟩

/-- A shared origin places nothing before the first sync packet. -/
theorem anchor_of_place_ok {pts : ℕ} (h : (s.place timestamp).2 = .ok pts)
    (horigin : s.origin.isSome) : s.anchor ≠ none := by
  intro hanchor
  obtain ⟨origin, heq⟩ := Option.isSome_iff_exists.mp horigin
  rw [place, heq, hanchor] at h
  cases h

theorem caughtUp_flush (s : AudioStream) : s.caughtUp.flush.bind (·.rtp) = none := by
  rw [caughtUp]
  dsimp only
  split
  · rfl
  · next h => exact Option.not_isSome_iff_eq_none.mp h

namespace Faithful

variable {heard : Heard}

/-- A packet that passes the flush is at or after its point. -/
theorem reached_of_passes (h : s.Faithful heard) (hpasses : s.Passes timestamp)
    (result : Except AudioError AudioOutput) : (heard.packet timestamp result).reached = true := by
  cases hreached : heard.reached with
  | true => simp [Heard.packet, hreached]
  | false =>
    rw [Passes, h.flushed, hreached] at hpasses
    cases hpoint : heard.point with
    | none => simp [Heard.packet, hpoint]
    | some point =>
      have hahead := hpasses point (by simpa using hpoint)
      simp [Heard.packet, hpoint, hahead]

theorem reached_of_stale (h : s.Faithful heard) (hstale : ¬ s.Passes timestamp)
    (result : Except AudioError AudioOutput) :
    (heard.packet timestamp result).reached = heard.reached := by
  cases hreached : heard.reached with
  | true =>
    rw [Passes, h.flushed, hreached] at hstale
    exact absurd (fun start hstart => by cases hstart) hstale
  | false =>
    rw [Passes, h.flushed, hreached] at hstale
    push Not at hstale
    obtain ⟨point, hpoint, hbehind⟩ := hstale
    have hpoint' : heard.point = some point := by simpa using hpoint
    simp [Heard.packet, hpoint', hreached, hbehind]

theorem packet (h : s.Faithful heard) {result : Except AudioError AudioOutput}
    (hhandled : Handled s (some timestamp) s' result) :
    s'.Faithful (heard.packet timestamp result) := by
  cases hhandled with
  | stale hstale =>
    exact ⟨h.remembered, h.waiting, by rw [h.reached_of_stale hstale]; exact h.flushed⟩
  | packet hpasses hpackaged =>
    have hreached := h.reached_of_passes hpasses
    have hflushed : ∀ result, s.caughtUp.flush.bind (·.rtp) =
        if (heard.packet timestamp result).reached then none
        else (heard.packet timestamp result).point := fun result => by
      rw [hreached result]
      exact caughtUp_flush s
    cases hpackaged with
    | priming | duplicate => exact ⟨h.remembered, h.waiting, hflushed _⟩
    | awaiting hfresh horigin hanchor =>
      have hnone : heard.output = [] := h.waiting horigin hanchor
      refine ⟨?_, fun _ _ => hnone, hflushed _⟩
      change s.delivered.push timestamp =
        ⟨latest (heard.awaited ++ [timestamp] ++ heard.output)⟩
      rw [h.remembered, push_latest, hnone, append_nil, append_nil]
    | output hfresh hplace =>
      obtain ⟨hdelivered, hflush, horigin⟩ :=
        place_keeps (s.caughtUp.remember timestamp) timestamp
      refine ⟨?_, fun hsome hanchor => ?_, ?_⟩
      · rw [hdelivered]
        change s.delivered.push timestamp =
          ⟨latest (heard.awaited ++ (heard.output ++ [timestamp]))⟩
        rw [h.remembered, push_latest, append_assoc]
      · rw [horigin] at hsome
        rw [place_anchor] at hanchor
        exact absurd hanchor (anchor_of_place_ok hplace hsome)
      · rw [hflush]
        exact hflushed _

theorem listen (h : s.Faithful heard) (cbc : Block → Block → Bytes → Bytes) (e : AudioEvent) :
    (s.next cbc e).Faithful (heard.after e (s.step cbc e).2) := by
  have hdatagram {s' : AudioStream} {result : Except AudioError AudioOutput}
      (hhandled : Handled s e.timestamp s' result) :
      s'.Faithful (heard.datagram e.timestamp result) := by
    generalize e.timestamp = carried at hhandled ⊢
    cases carried with
    | some timestamp => exact h.packet hhandled
    | none =>
      cases hhandled with
      | refused => exact h
      | synced =>
        refine ⟨h.remembered, fun _ hanchor => ?_, h.flushed⟩
        cases hanchor
  have hstepped := stepped cbc s e
  rw [AudioStream.next]
  generalize (s.step cbc e).1 = s', (s.step cbc e).2 = result at hstepped ⊢
  cases hstepped with
  | audio datagram hhandled | control datagram hhandled => exact hdatagram hhandled
  | flushed point => exact ⟨rfl, fun _ _ => rfl, rfl⟩
  | video senderNs =>
    refine ⟨h.remembered, fun hsome => h.waiting ?_, h.flushed⟩
    rwa [Option.isSome_map] at hsome

theorem run {start : AudioStream} (hstart : start.Faithful {})
    (cbc : Block → Block → Bytes → Bytes) (events : List AudioEvent) :
    (listened cbc start events).1.Faithful (listened cbc start events).2 := by
  induction events using List.reverseRecOn with
  | nil => exact hstart
  | append_singleton events e ih =>
    rw [listened, foldl_concat]
    exact ih.listen cbc e

end Faithful

theorem faithful_start (codec : RaopCodec) (crypto : StreamCrypto) (shared : Option StreamOrigin) :
    (start codec crypto shared).Faithful {} :=
  ⟨rfl, fun _ _ => rfl, rfl⟩

/-! ## The results -/

theorem handled_of_result {e : AudioEvent} {result : Except AudioError AudioOutput}
    (h : (s.step cbc e).2 = some result) : Handled s e.timestamp (s.step cbc e).1 result := by
  have hstepped := stepped cbc s e
  generalize (s.step cbc e).1 = s', (s.step cbc e).2 = taken at h hstepped ⊢
  cases hstepped with
  | audio datagram hhandled | control datagram hhandled => cases h; exact hhandled
  | flushed point | video senderNs => cases h

/-- In every run, a packet refused as a copy has a timestamp that came out since
the last flush, or that was refused for want of a sync packet; what comes out is
not among the latest that came out; and until a packet at or after the flush
point has arrived, nothing before that point comes out. -/
theorem copies_and_flushes (cbc : Block → Block → Bytes → Bytes) (codec : RaopCodec)
    (crypto : StreamCrypto) (shared : Option StreamOrigin) (events : List AudioEvent)
    (e : AudioEvent) : ((((listened cbc (start codec crypto shared) events).1.step cbc e).2 =
        some (.error .duplicate)) →
      ∃ timestamp, e.timestamp = some timestamp ∧
        (timestamp ∈ (listened cbc (start codec crypto shared) events).2.output ∨
          timestamp ∈ (listened cbc (start codec crypto shared) events).2.awaited)) ∧
    ∀ sequence timestamp frame,
      ((listened cbc (start codec crypto shared) events).1.step cbc e).2 =
        some (.ok (.frame sequence timestamp frame)) →
      e.timestamp = some timestamp ∧
        timestamp ∉ latest (listened cbc (start codec crypto shared) events).2.output ∧
        ∀ point, (listened cbc (start codec crypto shared) events).2.point = some point →
          (listened cbc (start codec crypto shared) events).2.reached = false →
          0 ≤ serialDiff timestamp point := by
  have hfaithful := (faithful_start codec crypto shared).run cbc events
  generalize listened cbc (start codec crypto shared) events = state at hfaithful ⊢
  obtain ⟨s, heard⟩ := state
  dsimp only at hfaithful ⊢
  refine ⟨fun hcopy => ?_, fun sequence timestamp frame hframe => ?_⟩
  · have hhandled := handled_of_result hcopy
    generalize (s.step cbc e).1 = s', e.timestamp = carried at hhandled ⊢
    cases hhandled with
    | refused he => exact absurd rfl he
    | @packet timestamp _ _ _ hpackaged =>
      cases hpackaged with
      | duplicate hmem =>
        have hmem' : timestamp ∈ s.delivered.recent := hmem
        rw [hfaithful.remembered] at hmem'
        exact ⟨timestamp, rfl, (mem_append.mp (mem_of_mem_latest hmem')).symm⟩
  · have hhandled := handled_of_result hframe
    generalize (s.step cbc e).1 = s', e.timestamp = carried at hhandled ⊢
    cases hhandled with
    | packet hpasses hpackaged =>
      cases hpackaged with
      | output hfresh hplace =>
        refine ⟨rfl, fun hmem => hfresh ?_, fun point hpoint hreached => ?_⟩
        · change timestamp ∈ s.delivered.recent
          rw [hfaithful.remembered]
          exact mem_latest_append hmem
        · apply hpasses point
          rw [hfaithful.flushed, hreached]
          exact hpoint

/-- Once a packet at the flush point came, one from before it comes out. -/
theorem straggler_comes_out :
    ∃ frame, ((listened (fun _ _ block => block) (start (.pcm 44100 2) .none none)
        [.flush ⟨some 1000, none⟩, packetAt 0 1000]).1.step (fun _ _ block => block)
          (packetAt 1 500)).2 = some (.ok (.frame 1 500 frame)) ∧
      serialDiff 500 1000 < 0 :=
  ⟨⟨none, some .pcm, 97391537324263, false, [0xAA]⟩, by decide +kernel⟩

end Castaway.AirPlay.AudioStream
