import Castaway.Lib.Runs
import Castaway.Pipeline.Clock

/-!
# The media clock from call to call

Calls come at instants that do not go back, and `nowAt` is asked at any instants
between them.  A `Trace` is the clock with what its calls amount to: the
position sought to, the time played since, where the clock froze, and the stall
since audio was last submitted.

## Strategy

A clock that is paused, or that runs off an anchor that is not audio's, moves
with the time that is not spent paused (`free_call`).  Everything else is about
audio's anchors: the clock steps back where audio takes over and has not kept up
(`neverBack_iff`), and it is past the audio that was submitted where that audio
came during a pause and is behind the frozen position (`belowAudio_iff`).
-/

namespace Castaway.Pipeline

open List

/-- What has gone by since audio was last submitted: the time that was not spent
paused, before the first pause and after it. -/
structure Stall where
  media : ℕ
  ran : ℕ := 0
  free : ℕ := 0
  broken : Bool
  deriving DecidableEq, Repr

namespace Stall

def elapse (stall : Stall) (time : ℕ) : Stall :=
  if stall.broken then { stall with free := stall.free + time }
  else { stall with ran := stall.ran + time }

def moved (stall : Stall) : ℕ :=
  (stall.media + min stall.ran outputLead - outputLead) - (stall.media - outputLead) + stall.free

end Stall

/-- A clock and the calls it has been given. -/
structure Trace where
  clock : MediaClock := {}
  /-- The instant of the last call. -/
  now : ℕ := 0
  sought : Option ℕ := none
  /-- The last audio position since the last seek. -/
  submitted : Option ℕ := none
  /-- The time not spent paused since the last seek. -/
  played : ℕ := 0
  /-- The anchor the clock froze on, and when. -/
  froze : Option (Anchor × ℕ) := none
  stall : Option Stall := none
  deriving DecidableEq, Repr

namespace Trace

def unpaused (trace : Trace) (instant : ℕ) : ℕ :=
  if trace.clock.paused then 0 else instant - trace.now

def call (trace : Trace) (c : Call) : Trace :=
  let time := trace.unpaused c.instant
  let next := { trace with
    clock := trace.clock.call c
    now := c.instant
    played := trace.played + time
    stall := trace.stall.map (·.elapse time) }
  match c with
  | .observeAudio media _ =>
    { next with
      submitted := some media
      stall := some { media := media, broken := trace.clock.paused } }
  | .startVideoMaster _ _ => next
  | .setPaused paused instant =>
    if trace.clock.paused = paused then next
    else if paused then
      { next with
        froze := trace.clock.anchor.map (·, instant)
        stall := next.stall.map ({ · with broken := true }) }
    else { next with froze := none }
  | .seekTo position _ =>
    { next with
      sought := some position
      submitted := none
      played := 0
      froze := none
      stall := none }

end Trace

def trace (calls : List Call) : Trace := calls.foldl Trace.call {}

/-- The clock is asked at `instant`, after some calls and before the others. -/
def Asked (before after : List Call) (instant : ℕ) : Prop :=
  (trace before).now ≤ instant ∧ ∀ c ∈ after, instant ≤ c.instant

def said (before : List Call) (instant : ℕ) : Option ℕ := (trace before).clock.nowAt instant

/-! ## What is asked of it -/

/-- Between two seeks, what it says does not decrease. -/
def NeverBack (calls : List Call) : Prop :=
  ∀ before middle after, calls = before ++ middle ++ after → (∀ c ∈ middle, c.isSeek = false) →
    ∀ i j, Asked before (middle ++ after) i → Asked (before ++ middle) after j → i ≤ j →
      ∀ v ∈ said before i, ∃ w ∈ said (before ++ middle) j, v ≤ w

/-- While paused it stands still, and it resumes from there. -/
structure PausesHold (calls : List Call) : Prop where
  still : ∀ before middle after, calls = before ++ middle ++ after →
    (trace before).clock.paused → (∀ c ∈ middle, c.isSeek = false ∧ c.isResume = false) →
      ∀ i j, ∀ v ∈ said before i, said (before ++ middle) j = some v
  resumes : ∀ before instant after, calls = before ++ .setPaused false instant :: after →
    (trace before).clock.paused →
      ∀ i j, Asked (before ++ [.setPaused false instant]) after j →
        ∀ v ∈ said before i,
          said (before ++ [.setPaused false instant]) j = some (v + (j - instant))

def Trace.FromAudio (trace : Trace) : Prop := ∃ anchor ∈ trace.clock.anchor, anchor.buffered = true

/-- It is not past the audio submitted, if the last anchor came from audio. -/
def BelowAudio (calls : List Call) : Prop :=
  ∀ before after, calls = before ++ after → (trace before).FromAudio →
    ∀ i, Asked before after i → ∀ v ∈ said before i, ∃ media ∈ (trace before).submitted, v ≤ media

/-- It is not past the position sought to and the time played since, otherwise.
-/
def BelowSought (calls : List Call) : Prop :=
  ∀ before after, calls = before ++ after → ¬ (trace before).FromAudio →
    ∀ position ∈ (trace before).sought, ∀ i, Asked before after i → ∀ v ∈ said before i,
      v ≤ position + ((trace before).played + (trace before).unpaused i)

/-- A stall moves it by no more than the lead. -/
def StallsBounded (calls : List Call) : Prop :=
  ∀ before media instant middle after,
    calls = before ++ .observeAudio media instant :: (middle ++ after) →
    (∀ c ∈ middle, c.isAudio = false ∧ c.isSeek = false) →
      ∀ j, Asked (before ++ .observeAudio media instant :: middle) after j →
        ∀ v ∈ said (before ++ [.observeAudio media instant]) instant,
          ∀ w ∈ said (before ++ .observeAudio media instant :: middle) j, w ≤ v + outputLead

/-! ## When it holds -/

/-- Audio that takes over has come as far as the clock has. -/
def KeepsUp (trace : Trace) : Call → Prop
  | .observeAudio media instant => trace.clock.paused = false → ∀ anchor ∈ trace.clock.anchor,
    if anchor.buffered then
      anchor.media + min (instant - anchor.instant) outputLead ≤ max media outputLead
    else anchor.media + (instant - anchor.instant) = 0 ∨
      anchor.media + (instant - anchor.instant) + outputLead ≤ media
  | _ => True

/-- Audio submitted during a pause is not behind where the clock froze. -/
def ReachesFrozen (trace : Trace) : Call → Prop
  | .observeAudio media _ => ∀ position ∈ trace.clock.frozen, position ≤ media
  | _ => True

/-- The audio anchor that a pause froze was not ahead of the time played. -/
def ResumesInTime (trace : Trace) : Call → Prop
  | .setPaused false _ => ∀ position ∈ trace.sought, ∀ frozen ∈ trace.froze,
    frozen.1.buffered → frozen.1.media + min (frozen.2 - frozen.1.instant) outputLead ≤
      position + trace.played + outputLead
  | _ => True

/-- Every call of a run meets a condition in the trace before it. -/
def Throughout (condition : Trace → Call → Prop) (calls : List Call) : Prop :=
  Along Trace.call condition calls {}

/-- No stall moves the clock by more than the lead. -/
def StallsShort (calls : List Call) : Prop :=
  ∀ before media instant middle after,
    calls = before ++ .observeAudio media instant :: (middle ++ after) →
    (∀ c ∈ middle, c.isAudio = false ∧ c.isSeek = false) →
      ∀ j, Asked (before ++ .observeAudio media instant :: middle) after j →
        ∀ stall ∈ (trace (before ++ .observeAudio media instant :: middle)).stall,
          (stall.elapse
            ((trace (before ++ .observeAudio media instant :: middle)).unpaused j)).moved ≤
              outputLead

/-! ## What a call does -/

/-- Not started; running off its anchor; or held somewhere. -/
inductive MediaClock.Phase : MediaClock → Prop
  | unstarted (paused : Bool) : Phase ⟨none, paused, none⟩
  | running (anchor : Anchor) : Phase ⟨some anchor, false, none⟩
  | held (anchor : Anchor) (position : ℕ) : Phase ⟨some anchor, true, some position⟩

namespace MediaClock

variable {clock : MediaClock} {c : Call} {i j v : ℕ}

theorem Phase.call (h : clock.Phase) (c : Call) : (clock.call c).Phase := by
  cases h with
  | unstarted paused =>
    cases c with
    | observeAudio media instant | startVideoMaster firstFrame instant =>
      cases paused <;> constructor
    | setPaused paused' instant => cases paused <;> cases paused' <;> constructor
    | seekTo position instant => cases paused <;> constructor
  | running anchor | held anchor position =>
    cases c with
    | observeAudio media instant => constructor
    | startVideoMaster firstFrame instant => constructor
    | setPaused paused instant => cases paused <;> constructor
    | seekTo position instant => constructor

end MediaClock

theorem Anchor.reading_mono (anchor : Anchor) {i j : ℕ} (h : i ≤ j) :
    anchor.reading i ≤ anchor.reading j := by
  unfold Anchor.reading
  split <;> dsimp only <;> omega

theorem reading_audio (media instant : ℕ) :
    Anchor.reading ⟨media, instant, true⟩ instant = media - outputLead := by
  unfold Anchor.reading
  rw [if_pos rfl, Nat.sub_self, Nat.zero_min, Nat.add_zero]

theorem reading_free (position instant i : ℕ) :
    Anchor.reading ⟨position, instant, false⟩ i = position + (i - instant) := rfl

/-- Audio has kept up if its anchor reads no less than the one it replaces. -/
theorem keepsUp_iff {trace : Trace} {media instant : ℕ} :
    KeepsUp trace (.observeAudio media instant) ↔ (trace.clock.paused = false →
      ∀ anchor ∈ trace.clock.anchor, anchor.reading instant ≤ media - outputLead) := by
  refine imp_congr_right fun _ => forall_congr' fun anchor => imp_congr_right fun _ => ?_
  unfold Anchor.reading
  split <;> dsimp only <;> omega

namespace MediaClock

variable {clock : MediaClock} {c : Call} {i j v : ℕ}

theorem nowAt_mono (h : i ≤ j) (hv : v ∈ clock.nowAt i) : ∃ w ∈ clock.nowAt j, v ≤ w := by
  obtain ⟨anchor, paused, frozen⟩ := clock
  cases paused with
  | true =>
    change v ∈ frozen at hv
    exact ⟨v, hv, le_rfl⟩
  | false =>
    obtain ⟨a, ha, rfl⟩ := Option.map_eq_some_iff.mp hv
    exact ⟨a.reading j, Option.map_eq_some_iff.mpr ⟨a, ha, rfl⟩, a.reading_mono h⟩

/-- Where nothing is moved and audio has kept up, a call does not take the clock
back. -/
theorem Phase.not_back (h : clock.Phase) (hseek : c.isSeek = false)
    (hkeeps : clock.paused = false → ∀ anchor ∈ clock.anchor, ∀ media instant,
      c = .observeAudio media instant → anchor.reading instant ≤ media - outputLead)
    (hv : v ∈ clock.nowAt c.instant) : ∃ w ∈ (clock.call c).nowAt c.instant, v ≤ w := by
  cases h with
  | unstarted paused => cases paused <;> cases hv
  | running anchor =>
    obtain rfl : anchor.reading c.instant = v := Option.some.inj hv
    cases c with
    | observeAudio media instant =>
      exact ⟨media - outputLead, congrArg some (reading_audio media instant),
        hkeeps rfl anchor rfl media instant rfl⟩
    | startVideoMaster firstFrame instant => exact ⟨_, rfl, le_rfl⟩
    | setPaused paused instant => cases paused <;> exact ⟨_, rfl, le_rfl⟩
    | seekTo position instant => cases hseek
  | held anchor position =>
    obtain rfl : position = v := Option.some.inj hv
    cases c with
    | observeAudio media instant | startVideoMaster firstFrame instant => exact ⟨_, rfl, le_rfl⟩
    | setPaused paused instant =>
      cases paused with
      | true => exact ⟨_, rfl, le_rfl⟩
      | false => exact ⟨_, congrArg some (reading_free position instant instant),
          Nat.le_add_right _ _⟩
    | seekTo position' instant => cases hseek

end MediaClock

/-! ## Runs -/

variable {calls before middle after : List Call} {c : Call} {i j v : ℕ} {clock : MediaClock}
  {anchor : Anchor} {t : Trace}

theorem MediaClock.Phase.eq_running (h : clock.Phase)
    (hpaused : clock.paused = false) (hanchor : anchor ∈ clock.anchor) :
    clock = ⟨some anchor, false, none⟩ := by
  cases h with
  | unstarted paused => cases hanchor
  | running anchor' =>
    cases hanchor
    rfl
  | held anchor' position => cases hpaused

theorem MediaClock.nowAt_of_running (hpaused : clock.paused = false)
    (hanchor : anchor ∈ clock.anchor) (i : ℕ) :
    anchor.reading i ∈ clock.nowAt i := by
  rw [Option.mem_def] at hanchor ⊢
  rw [nowAt, hpaused, runningAt, hanchor]
  rfl

theorem nowAt_running (anchor : Anchor) (i : ℕ) :
    MediaClock.nowAt ⟨some anchor, false, none⟩ i = some (anchor.reading i) := rfl

theorem nowAt_held (anchor : Anchor) (position i : ℕ) :
    MediaClock.nowAt ⟨some anchor, true, some position⟩ i = some position := rfl

def InOrder (calls : List Call) : Prop := (calls.map (·.instant)).Pairwise (· ≤ ·)

instance (calls : List Call) : Decidable (InOrder calls) :=
  inferInstanceAs (Decidable (List.Pairwise _ _))

theorem trace_append (before middle : List Call) :
    trace (before ++ middle) = middle.foldl Trace.call (trace before) :=
  foldl_append ..

theorem clock_call (t : Trace) (c : Call) : (t.call c).clock = t.clock.call c := by
  cases c with
  | setPaused paused instant =>
    change (ite _ _ _ : Trace).clock = _
    split
    · rfl
    · split <;> rfl
  | observeAudio media instant | startVideoMaster firstFrame instant | seekTo position instant =>
    rfl

theorem now_call (t : Trace) (c : Call) : (t.call c).now = c.instant := by
  cases c with
  | setPaused paused instant =>
    change (ite _ _ _ : Trace).now = _
    split
    · rfl
    · split <;> rfl
  | observeAudio media instant | startVideoMaster firstFrame instant | seekTo position instant =>
    rfl

theorem phase_foldl (h : t.clock.Phase) (calls : List Call) :
    (calls.foldl Trace.call t).clock.Phase := by
  induction calls generalizing t with
  | nil => exact h
  | cons c calls ih => exact ih (by rw [clock_call]; exact h.call c)

theorem phase_trace (calls : List Call) : (trace calls).clock.Phase :=
  phase_foldl (t := {}) (.unstarted false) calls

theorem trace_concat (before : List Call) (c : Call) :
    trace (before ++ [c]) = (trace before).call c :=
  trace_append before [c]

theorem inOrder_append : InOrder (before ++ after) ↔ InOrder before ∧ InOrder after ∧
    ∀ c ∈ before, ∀ c' ∈ after, c.instant ≤ c'.instant := by
  simp [InOrder, pairwise_append]

/-- In order, every call has come by the instant of the last. -/
theorem instant_le_now (h : InOrder (before ++ middle)) (hc : c ∈ middle) :
    c.instant ≤ (trace (before ++ middle)).now := by
  obtain ⟨front, last, rfl⟩ :=
    (eq_nil_or_concat' middle).resolve_left (ne_nil_of_mem hc)
  rw [← append_assoc] at h ⊢
  rw [trace_concat, now_call]
  rcases mem_append.mp hc with hfront | hlast
  · exact (inOrder_append.mp h).2.2 c (mem_append_right _ hfront) last mem_cons_self
  · rw [mem_singleton.mp hlast]

theorem asked_at_call (h : InOrder (before ++ c :: after)) :
    Asked before (c :: after) c.instant ∧ Asked (before ++ [c]) after c.instant := by
  obtain ⟨-, hback, hcross⟩ := inOrder_append.mp h
  have hafter (c' : Call) (hc' : c' ∈ after) : c.instant ≤ c'.instant :=
    (pairwise_cons.mp hback).1 _ (mem_map_of_mem hc')
  refine ⟨⟨?_, forall_mem_cons.mpr ⟨le_rfl, hafter⟩⟩, ?_, hafter⟩
  · rcases eq_nil_or_concat' before with rfl | ⟨front, last, rfl⟩
    · exact Nat.zero_le _
    · rw [trace_concat, now_call]
      exact hcross last (by simp) c mem_cons_self
  · rw [trace_concat, now_call]
/-! ### Never back -/

/-- Without a seek, and as long as audio keeps up, later calls do not take the
clock back. -/
theorem not_back_foldl (hphase : t.clock.Phase)
    (hseek : ∀ c ∈ middle, c.isSeek = false) (hkeeps : Along Trace.call KeepsUp middle t)
    (horder : InOrder middle) (hi : ∀ c ∈ middle, i ≤ c.instant) (hj : ∀ c ∈ middle, c.instant ≤ j)
    (hij : i ≤ j) (hv : v ∈ t.clock.nowAt i) :
    ∃ w ∈ (middle.foldl Trace.call t).clock.nowAt j, v ≤ w := by
  induction middle generalizing t i v with
  | nil => exact MediaClock.nowAt_mono hij hv
  | cons c middle ih =>
    obtain ⟨hseek, hseeks⟩ := forall_mem_cons.mp hseek
    obtain ⟨hj, hjs⟩ := forall_mem_cons.mp hj
    obtain ⟨horder, horders⟩ := pairwise_cons.mp horder
    obtain ⟨u, hu, hvu⟩ := MediaClock.nowAt_mono (hi c mem_cons_self) hv
    have hstep : t.clock.paused = false → ∀ anchor ∈ t.clock.anchor, ∀ media instant,
        c = .observeAudio media instant → anchor.reading instant ≤ media - outputLead := by
      rintro hpaused anchor hanchor media instant rfl
      exact keepsUp_iff.mp hkeeps.1 hpaused anchor hanchor
    obtain ⟨w, hw, huw⟩ := hphase.not_back hseek hstep hu
    rw [← clock_call] at hw
    obtain ⟨x, hx, hwx⟩ := ih (by rw [clock_call]; exact hphase.call c) hseeks hkeeps.2 horders
      (fun c' hc' => horder _ (mem_map_of_mem hc')) hjs hj hw
    exact ⟨x, hx, hvu.trans (huw.trans hwx)⟩

/-- **The clock never goes back between two seeks exactly if audio keeps up.**
-/
theorem neverBack_iff (horder : InOrder calls) : NeverBack calls ↔ Throughout KeepsUp calls := by
  constructor
  · intro h
    refine along_iff_forall_split.mpr fun before c after hsplit => ?_
    cases c with
    | observeAudio media instant =>
      rw [keepsUp_iff]
      intro hpaused anchor hanchor
      obtain ⟨hbefore, hafter⟩ := asked_at_call (hsplit ▸ horder)
      obtain ⟨w, hw, hle⟩ := h before [.observeAudio media instant] after (by rw [hsplit]; simp)
        (by simp [Call.isSeek]) instant instant hbefore hafter le_rfl _
        (MediaClock.nowAt_of_running hpaused hanchor instant)
      have hphase : (trace before).clock = ⟨some anchor, false, none⟩ :=
        (phase_trace before).eq_running hpaused hanchor
      have hnow :
          w ∈ ((trace before).clock.call (.observeAudio media instant)).nowAt instant := by
        rwa [← clock_call, ← trace_concat]
      rw [hphase] at hnow
      have hread : some (Anchor.reading ⟨media, instant, true⟩ instant) = some w := hnow
      rw [reading_audio, Option.some.injEq] at hread
      rwa [hread]
    | startVideoMaster firstFrame instant | setPaused paused instant | seekTo position instant =>
      trivial
  · rintro hkeeps before middle after rfl hseek i j hi hj hij v hv
    rw [Throughout, along_append, along_append] at hkeeps
    obtain ⟨hfront, -, -⟩ := inOrder_append.mp horder
    rw [said, trace_append]
    refine not_back_foldl (phase_trace before) hseek hkeeps.1.2 (inOrder_append.mp hfront).2.1
      (fun c hc => hi.2 c (mem_append_left _ hc)) (fun c hc => ?_) hij hv
    exact (instant_le_now hfront hc).trans hj.1

/-! ### Pauses -/

/-- A paused clock that is somewhere stays there until it is moved or resumed.
-/
theorem MediaClock.Phase.still (h : clock.Phase) (hpaused : clock.paused)
    (hseek : c.isSeek = false) (hresume : c.isResume = false) (hv : v ∈ clock.frozen) :
    (clock.call c).paused = true ∧ v ∈ (clock.call c).frozen := by
  cases h with
  | unstarted paused => cases hv
  | running anchor => cases hpaused
  | held anchor position =>
    cases c with
    | observeAudio media instant | startVideoMaster firstFrame instant => exact ⟨rfl, hv⟩
    | setPaused paused instant =>
      cases paused with
      | true => exact ⟨rfl, hv⟩
      | false => cases hresume
    | seekTo position' instant => cases hseek

theorem nowAt_of_paused (h : clock.paused) (i : ℕ) :
    clock.nowAt i = clock.frozen := if_pos h

theorem still_foldl (hphase : t.clock.Phase) (hpaused : t.clock.paused)
    (h : ∀ c ∈ middle, c.isSeek = false ∧ c.isResume = false) (hv : v ∈ t.clock.frozen) :
    (middle.foldl Trace.call t).clock.nowAt j = some v := by
  induction middle generalizing t with
  | nil => exact (nowAt_of_paused hpaused j).trans hv
  | cons c middle ih =>
    obtain ⟨⟨hseek, hresume⟩, hrest⟩ := forall_mem_cons.mp h
    obtain ⟨hpaused', hv'⟩ := hphase.still hpaused hseek hresume hv
    rw [← clock_call] at hpaused' hv'
    exact ih (by rw [clock_call]; exact hphase.call c) hpaused' hrest hv'

/-- **A pause holds the clock where it is, and it goes on from there.** -/
theorem pausesHold (calls : List Call) : PausesHold calls where
  still := by
    rintro before middle after - hpaused h i j v hv
    rw [said, nowAt_of_paused hpaused] at hv
    rw [said, trace_append]
    exact still_foldl (phase_trace before) hpaused h hv
  resumes := by
    rintro before instant after - hpaused i j - v hv
    rw [said, nowAt_of_paused hpaused] at hv
    rw [said, trace_concat, clock_call]
    have hphase := phase_trace before
    generalize (trace before).clock = clock at hpaused hv hphase
    cases hphase with
    | unstarted paused => cases hv
    | running anchor => cases hpaused
    | held anchor position =>
      cases hv
      rfl

/-! ### A free clock -/

/-- Paused, or off an anchor that is not audio's: time is all that moves it. -/
def MediaClock.Free (clock : MediaClock) : Prop :=
  clock.paused = true ∨ ∀ anchor ∈ clock.anchor, anchor.buffered = false

def Trace.Timed (t : Trace) : Prop := ∀ anchor ∈ t.clock.anchor, anchor.instant ≤ t.now

theorem anchor_call (h : clock.Phase) (c : Call) (hanchor : anchor ∈ (clock.call c).anchor) :
    anchor.instant = c.instant ∨ anchor ∈ clock.anchor := by
  cases h with
  | unstarted paused =>
    cases c with
    | observeAudio media instant | startVideoMaster firstFrame instant =>
      cases paused <;> cases hanchor <;> exact .inl rfl
    | setPaused paused' instant => cases paused <;> cases paused' <;> cases hanchor
    | seekTo position instant => cases paused <;> cases hanchor <;> exact .inl rfl
  | running anchor' =>
    cases c with
    | observeAudio media instant => cases hanchor; exact .inl rfl
    | startVideoMaster firstFrame instant => exact .inr hanchor
    | setPaused paused instant => cases paused <;> exact .inr hanchor
    | seekTo position instant => cases hanchor; exact .inl rfl
  | held anchor' position =>
    cases c with
    | observeAudio media instant => cases hanchor; exact .inl rfl
    | startVideoMaster firstFrame instant => exact .inr hanchor
    | setPaused paused instant =>
      cases paused with
      | true => exact .inr hanchor
      | false => cases hanchor; exact .inl rfl
    | seekTo position' instant => cases hanchor; exact .inl rfl

theorem Trace.Timed.call (h : t.Timed) (hphase : t.clock.Phase)
    (hc : t.now ≤ c.instant) : (t.call c).Timed := by
  intro anchor hanchor
  rw [clock_call] at hanchor
  rw [now_call]
  rcases anchor_call hphase c hanchor with hfresh | hold
  · exact hfresh.le
  · exact (h anchor hold).trans hc

/-- A free clock goes on by the time that is not spent paused. -/
theorem free_value (htimed : t.Timed) (hphase : t.clock.Phase) (hfree : t.clock.Free)
    (hi : t.now ≤ i) (hv : v ∈ t.clock.nowAt t.now) : v + t.unpaused i ∈ t.clock.nowAt i := by
  obtain ⟨clock, now, sought, submitted, played, froze, stall⟩ := t
  dsimp only at hphase hfree hi hv ⊢
  cases hphase with
  | unstarted paused => cases paused <;> cases hv
  | running anchor =>
    have hbuffered : anchor.buffered = false := hfree.resolve_left (by simp) anchor rfl
    have hbefore : anchor.instant ≤ now := htimed anchor rfl
    have hread (k : ℕ) : anchor.reading k = anchor.media + (k - anchor.instant) := by
      unfold Anchor.reading
      rw [hbuffered]
      rfl
    rw [nowAt_running, Option.mem_some_iff] at hv ⊢
    have hlater : anchor.reading i = v + (i - now) := by
      rw [hread] at hv ⊢
      omega
    exact hlater
  | held anchor position =>
    have hnone : Trace.unpaused ⟨⟨some anchor, true, some position⟩, now, sought, submitted,
        played, froze, stall⟩ i = 0 := if_pos rfl
    rw [hnone, Nat.add_zero, nowAt_held]
    rwa [nowAt_held] at hv

/-- Nor does a call that neither moves it nor brings audio do more. -/
theorem free_call (htimed : t.Timed) (hphase : t.clock.Phase) (hfree : t.clock.Free)
    (hc : t.now ≤ c.instant) (haudio : c.isAudio = false) (hseek : c.isSeek = false)
    (hv : v ∈ t.clock.nowAt t.now) :
    (t.call c).clock.Free ∧ v + t.unpaused c.instant ∈ (t.call c).clock.nowAt c.instant := by
  have hvalue := free_value htimed hphase hfree hc hv
  rw [clock_call]
  generalize v + t.unpaused c.instant = w at hvalue
  generalize t.clock = clock at hphase hfree hvalue
  cases hphase with
  | unstarted paused => cases paused <;> cases hvalue
  | running anchor =>
    cases c with
    | observeAudio media instant => cases haudio
    | startVideoMaster firstFrame instant => exact ⟨hfree, hvalue⟩
    | setPaused paused instant =>
      cases paused with
      | true => exact ⟨.inl rfl, hvalue⟩
      | false => exact ⟨hfree, hvalue⟩
    | seekTo position instant => cases hseek
  | held anchor position =>
    cases c with
    | observeAudio media instant => cases haudio
    | startVideoMaster firstFrame instant => exact ⟨.inl rfl, hvalue⟩
    | setPaused paused instant =>
      cases paused with
      | true => exact ⟨.inl rfl, hvalue⟩
      | false =>
        obtain rfl : position = w := Option.some.inj hvalue
        refine ⟨.inr ?_, ?_⟩
        · rintro anchor' ⟨⟩
          rfl
        · have hread := reading_free position instant instant
          rw [Nat.sub_self, Nat.add_zero] at hread
          change position ∈
            MediaClock.nowAt ⟨some ⟨position, instant, false⟩, false, none⟩ instant
          rw [nowAt_running, hread]
          rfl
    | seekTo position' instant => cases hseek

/-! ### Below the audio -/

/-- Where the clock froze is not past the audio it is anchored on. -/
def MediaClock.Bounded (clock : MediaClock) : Prop :=
  ∀ position ∈ clock.frozen, ∀ anchor ∈ clock.anchor, anchor.buffered = true →
    position ≤ anchor.media

theorem reading_le_media (h : anchor.buffered = true) (i : ℕ) :
    anchor.reading i ≤ anchor.media := by
  unfold Anchor.reading
  rw [if_pos h]
  omega

theorem bounded_call (hphase : t.clock.Phase) (h : t.clock.Bounded) (c : Call) :
    (t.call c).clock.Bounded ↔ ReachesFrozen t c := by
  rw [clock_call]
  obtain ⟨clock, now, sought, submitted, played, froze, stall⟩ := t
  dsimp only at hphase h ⊢
  cases hphase with
  | unstarted paused =>
    refine iff_of_true ?_ ?_
    · cases c with
      | observeAudio media instant =>
        cases paused with
        | true =>
          rintro position hposition anchor ⟨⟩ -
          obtain rfl : Anchor.reading ⟨media, instant, true⟩ instant = position :=
            Option.some.inj hposition
          exact reading_le_media rfl instant
        | false => rintro position ⟨⟩
      | startVideoMaster firstFrame instant =>
        cases paused <;> rintro position - anchor ⟨⟩ hbuffered <;> cases hbuffered
      | setPaused paused' instant => cases paused <;> cases paused' <;> rintro position ⟨⟩
      | seekTo position' instant =>
        cases paused <;> rintro position - anchor ⟨⟩ hbuffered <;> cases hbuffered
    · cases c with
      | observeAudio media instant => rintro position ⟨⟩
      | startVideoMaster firstFrame instant | setPaused paused' instant
      | seekTo position' instant => trivial
  | running anchor =>
    refine iff_of_true ?_ ?_
    · cases c with
      | observeAudio media instant | startVideoMaster firstFrame instant => rintro position ⟨⟩
      | setPaused paused instant =>
        cases paused with
        | true =>
          rintro position hposition anchor' ⟨⟩ hbuffered
          obtain rfl : anchor.reading instant = position := Option.some.inj hposition
          exact reading_le_media hbuffered instant
        | false => rintro position ⟨⟩
      | seekTo position' instant => rintro position ⟨⟩
    · cases c with
      | observeAudio media instant => rintro position ⟨⟩
      | startVideoMaster firstFrame instant | setPaused paused instant | seekTo position' instant =>
        trivial
  | held anchor position =>
    cases c with
    | observeAudio media instant =>
      constructor
      · exact fun hnext position' hposition => hnext position' hposition _ rfl rfl
      · rintro hreaches position' hposition anchor' ⟨⟩ -
        exact hreaches position' hposition
    | startVideoMaster firstFrame instant => exact iff_of_true h trivial
    | setPaused paused instant =>
      cases paused with
      | true => exact iff_of_true h trivial
      | false => exact iff_of_true (by rintro position' ⟨⟩) trivial
    | seekTo position' instant =>
      refine iff_of_true ?_ trivial
      rintro position'' - anchor' ⟨⟩ hbuffered
      cases hbuffered

def Trace.Submits (t : Trace) : Prop :=
  ∀ anchor ∈ t.clock.anchor, anchor.buffered = true → t.submitted = some anchor.media

theorem submitted_call (haudio : c.isAudio = false) (hseek : c.isSeek = false) :
    (t.call c).submitted = t.submitted := by
  cases c with
  | observeAudio media instant => cases haudio
  | startVideoMaster firstFrame instant => rfl
  | setPaused paused instant =>
    change (ite _ _ _ : Trace).submitted = _
    split
    · rfl
    · split <;> rfl
  | seekTo position instant => cases hseek

theorem buffered_call (h : clock.Phase) (haudio : c.isAudio = false)
    (hanchor : anchor ∈ (clock.call c).anchor)
    (hbuffered : anchor.buffered = true) : anchor ∈ clock.anchor ∧ c.isSeek = false := by
  cases h with
  | unstarted paused =>
    cases c with
    | observeAudio media instant => cases haudio
    | startVideoMaster firstFrame instant =>
      cases paused <;> cases hanchor <;> cases hbuffered
    | setPaused paused' instant => cases paused <;> cases paused' <;> cases hanchor
    | seekTo position instant => cases paused <;> cases hanchor <;> cases hbuffered
  | running anchor' =>
    cases c with
    | observeAudio media instant => cases haudio
    | startVideoMaster firstFrame instant => exact ⟨hanchor, rfl⟩
    | setPaused paused instant => cases paused <;> exact ⟨hanchor, rfl⟩
    | seekTo position instant => cases hanchor; cases hbuffered
  | held anchor' position =>
    cases c with
    | observeAudio media instant => cases haudio
    | startVideoMaster firstFrame instant => exact ⟨hanchor, rfl⟩
    | setPaused paused instant =>
      cases paused with
      | true => exact ⟨hanchor, rfl⟩
      | false => cases hanchor; cases hbuffered
    | seekTo position' instant => cases hanchor; cases hbuffered

theorem anchor_observe (clock : MediaClock) (media instant : ℕ) :
    (clock.call (.observeAudio media instant)).anchor = some ⟨media, instant, true⟩ := by
  change (MediaClock.anchorAt clock _).anchor = _
  unfold MediaClock.anchorAt
  dsimp only
  split <;> rfl

theorem Trace.Submits.call (h : t.Submits) (hphase : t.clock.Phase) (c : Call) :
    (t.call c).Submits := by
  intro anchor hanchor hbuffered
  rw [clock_call] at hanchor
  cases haudio : c.isAudio with
  | true =>
    cases c with
    | observeAudio media instant =>
      rw [anchor_observe] at hanchor
      cases hanchor
      rfl
    | startVideoMaster firstFrame instant | setPaused paused instant | seekTo position instant =>
      cases haudio
  | false =>
    obtain ⟨hold, hseek⟩ := buffered_call hphase haudio hanchor hbuffered
    rw [submitted_call haudio hseek]
    exact h anchor hold hbuffered

theorem submits_trace (calls : List Call) : (trace calls).Submits := by
  induction calls using List.reverseRecOn with
  | nil => rintro anchor ⟨⟩
  | append_singleton calls c ih =>
    rw [trace_concat]
    exact ih.call (phase_trace calls) c

theorem asked_now (h : InOrder (before ++ after)) : Asked before after (trace before).now := by
  refine ⟨le_rfl, fun c hc => ?_⟩
  rcases eq_nil_or_concat' before with rfl | ⟨front, last, rfl⟩
  · exact Nat.zero_le _
  · rw [trace_concat, now_call]
    exact (inOrder_append.mp h).2.2 last (by simp) c hc

/-- What holds after every part of a run, as a statement about every split of
it. -/
theorem forall_take_iff_split (P : Trace → Prop) : (∀ k ≤ calls.length, P (trace (calls.take k))) ↔
      ∀ before after, calls = before ++ after → P (trace before) := by
  constructor
  · rintro h before after rfl
    have hprefix := h before.length (by simp)
    rwa [take_left] at hprefix
  · exact fun h k _ => h _ _ (take_append_drop k calls).symm

theorem always_bounded_iff :
    (∀ before after, calls = before ++ after → (trace before).clock.Bounded) ↔
      Throughout ReachesFrozen calls := by
  refine (forall_take_iff_split fun t : Trace => t.clock.Bounded).symm.trans ?_
  refine along_iff_under (fun t : Trace => t.clock.Phase) (fun t : Trace => t.clock.Bounded)
    (.unstarted false) (by rintro position ⟨⟩) along_true fun t c hphase hbounded _ => ?_
  exact ⟨bounded_call hphase hbounded c, fun _ => by rw [clock_call]; exact hphase.call c⟩

/-- **The clock is never past the audio submitted, while it follows audio,
exactly if audio that comes during a pause reaches where the clock froze.** -/
theorem belowAudio_iff (horder : InOrder calls) :
    BelowAudio calls ↔ Throughout ReachesFrozen calls := by
  rw [← always_bounded_iff]
  constructor
  · intro h before after hsplit position hposition anchor hanchor hbuffered
    have hsaid : position ∈ said before (trace before).now := by
      have hphase := phase_trace before
      rw [said]
      generalize (trace before).clock = clock at hposition hphase ⊢
      cases hphase with
      | unstarted paused | running anchor' => cases hposition
      | held anchor' position' => exact hposition
    obtain ⟨media, hmedia, hle⟩ := h before after hsplit ⟨anchor, hanchor, hbuffered⟩ _
      (asked_now (hsplit ▸ horder)) position hsaid
    rw [submits_trace before anchor hanchor hbuffered, Option.mem_some_iff] at hmedia
    rwa [hmedia]
  · rintro h before after hsplit ⟨anchor, hanchor, hbuffered⟩ i - v hv
    refine ⟨anchor.media, submits_trace before anchor hanchor hbuffered, ?_⟩
    have hbounded := h before after hsplit
    have hphase := phase_trace before
    rw [said] at hv
    generalize (trace before).clock = clock at hbounded hphase hv hanchor
    cases hphase with
    | unstarted paused => cases hanchor
    | running anchor' =>
      cases hanchor
      rw [nowAt_running, Option.mem_some_iff] at hv
      rw [← hv]
      exact reading_le_media hbuffered i
    | held anchor' position =>
      rw [nowAt_held, Option.mem_some_iff] at hv
      exact hbounded v (congrArg some hv) anchor hanchor hbuffered

end Castaway.Pipeline
