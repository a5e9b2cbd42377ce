import Castaway.Pipeline.ClockTrace

/-!
# What the media clock keeps to

A stall moves the clock by `Stall.moved`: the queue runs dry, until a pause,
after which the clock is free (`said_in_stall`).

The clock is past the position sought to and the time played where it resumes
off an audio anchor that was that far ahead, and only there
(`Trace.Sought.call`).
-/

namespace Castaway.Pipeline

variable {calls before middle after : List Call} {c : Call} {i j v : ℕ} {stall : Stall}
  {base media instant : ℕ} {t : Trace}

/-! ### Stalls -/

/-- What a stall keeps: an audio anchor that nothing has touched, or a clock
that is free. -/
inductive Stalled (base : ℕ) : Trace → Stall → Prop
  | dry {t : Trace} {stall : Stall} {instant : ℕ}
      (hclock : t.clock = ⟨some ⟨stall.media, instant, true⟩, false, none⟩)
      (hinstant : instant ≤ t.now) (hran : stall.ran = t.now - instant) (hfree : stall.free = 0)
      (hbroken : stall.broken = false) (hbase : base = stall.media - outputLead) :
      Stalled base t stall
  | free {t : Trace} {stall : Stall} (htimed : t.Timed) (hphase : t.clock.Phase)
      (hfree : t.clock.Free) (hbroken : stall.broken = true)
      (hvalue : base + stall.moved ∈ t.clock.nowAt t.now) : Stalled base t stall

theorem moved_broken (h : stall.broken = true) (time : ℕ) :
    (stall.elapse time).moved = stall.moved + time := by
  rw [Stall.elapse, if_pos h, Stall.moved, Stall.moved]
  exact (Nat.add_assoc _ _ _).symm

theorem Stalled.said (h : Stalled base t stall)
    (hi : t.now ≤ i) : base + (stall.elapse (t.unpaused i)).moved ∈ t.clock.nowAt i := by
  cases h with
  | @dry instant hclock hinstant hran hfree hbroken hbase =>
    have hunpaused : t.unpaused i = i - t.now := by rw [Trace.unpaused, hclock]; rfl
    rw [hunpaused, hclock, nowAt_running, Option.mem_some_iff, Stall.elapse,
      if_neg (by rw [hbroken]; exact Bool.false_ne_true), Stall.moved, hran, hfree, hbase]
    unfold Anchor.reading
    rw [if_pos rfl]
    dsimp only
    omega
  | free htimed hphase hfree hbroken hvalue =>
    rw [moved_broken hbroken, ← Nat.add_assoc]
    exact free_value htimed hphase hfree hi hvalue

/-- A call that brings no audio and does not seek lets the stall go on, and a
pause breaks it. -/
theorem stall_call (haudio : c.isAudio = false) (hseek : c.isSeek = false) (h : stall ∈ t.stall) :
    ∃ stall' ∈ (t.call c).stall, stall'.moved = (stall.elapse (t.unpaused c.instant)).moved ∧
      (stall' = stall.elapse (t.unpaused c.instant) ∧
          (t.clock.paused = false → ∀ instant, c ≠ .setPaused true instant) ∨
        stall'.broken = true ∧ ∃ instant, c = .setPaused true instant) := by
  have hmap : t.stall.map (·.elapse (t.unpaused c.instant)) =
      some (stall.elapse (t.unpaused c.instant)) := by
    rw [Option.mem_def.mp h]
    rfl
  cases c with
  | observeAudio media instant => cases haudio
  | startVideoMaster firstFrame instant =>
    exact ⟨_, hmap, rfl, .inl ⟨rfl, fun _ _ heq => by cases heq⟩⟩
  | setPaused paused instant =>
    by_cases hsame : t.clock.paused = paused
    · refine ⟨_, ?_, rfl, .inl ⟨rfl, fun hrunning instant' heq => ?_⟩⟩
      · rw [Trace.call]
        dsimp only
        rw [if_pos hsame]
        exact hmap
      · cases heq
        rw [hrunning] at hsame
        cases hsame
    · cases paused with
      | true =>
        refine ⟨{ stall.elapse (t.unpaused instant) with broken := true }, ?_, rfl,
          .inr ⟨rfl, instant, rfl⟩⟩
        rw [Trace.call]
        dsimp only
        rw [if_neg hsame, if_pos rfl]
        exact congrArg (Option.map ({ · with broken := true })) hmap
      | false =>
        refine ⟨_, ?_, rfl, .inl ⟨rfl, fun _ _ heq => by cases heq⟩⟩
        rw [Trace.call]
        dsimp only
        rw [if_neg hsame, if_neg Bool.false_ne_true]
        exact hmap
  | seekTo position instant => cases hseek

/-- A call that does not pause leaves an audio anchor alone. -/
theorem call_running {anchor : Anchor} (haudio : c.isAudio = false) (hseek : c.isSeek = false)
    (hpause : ∀ instant, c ≠ .setPaused true instant) :
    MediaClock.call ⟨some anchor, false, none⟩ c = ⟨some anchor, false, none⟩ := by
  cases c with
  | observeAudio media instant => cases haudio
  | startVideoMaster firstFrame instant => rfl
  | setPaused paused instant =>
    cases paused with
    | true => exact absurd rfl (hpause instant)
    | false => rfl
  | seekTo position instant => cases hseek

/-- A pause freezes the position that the clock had then. -/
theorem call_pause (anchor : Anchor) (instant : ℕ) :
    MediaClock.call ⟨some anchor, false, none⟩ (.setPaused true instant) =
      ⟨some anchor, true, some (anchor.reading instant)⟩ := rfl

/-- A stall goes on under every call but audio and a seek. -/
theorem Stalled.call (h : Stalled base t stall)
    (hstall : stall ∈ t.stall) (hc : t.now ≤ c.instant) (haudio : c.isAudio = false)
    (hseek : c.isSeek = false) : ∃ stall' ∈ (t.call c).stall, Stalled base (t.call c) stall' := by
  obtain ⟨stall', hmem, hmoved, hsame⟩ := stall_call haudio hseek hstall
  have hsaid := h.said hc
  refine ⟨stall', hmem, ?_⟩
  cases h with
  | @dry instant hclock hinstant hran hfree hbroken hbase =>
    have hunpaused : t.unpaused c.instant = c.instant - t.now := by
      rw [Trace.unpaused, hclock]
      rfl
    rcases hsame with ⟨rfl, hpause⟩ | ⟨hbroken', instant', rfl⟩
    · have hrunning : t.clock.paused = false := by rw [hclock]
      have helapse : stall.elapse (t.unpaused c.instant) =
          { stall with ran := stall.ran + t.unpaused c.instant } := by
        rw [Stall.elapse, if_neg (by rw [hbroken]; exact Bool.false_ne_true)]
      rw [helapse]
      refine @Stalled.dry base _ _ instant ?_ ?_ ?_ hfree hbroken hbase
      · rw [clock_call, hclock, call_running haudio hseek (hpause hrunning)]
      · rw [now_call]
        exact hinstant.trans hc
      · rw [now_call, hran, hunpaused]
        dsimp only
        omega
    · rw [hclock, nowAt_running] at hsaid
      have hnext : (t.call (.setPaused true instant')).clock =
          ⟨some ⟨stall.media, instant, true⟩, true,
            some (Anchor.reading ⟨stall.media, instant, true⟩ instant')⟩ := by
        rw [clock_call, hclock, call_pause]
      refine .free ?_ ?_ ?_ hbroken' ?_
      · intro anchor hanchor
        rw [hnext] at hanchor
        cases hanchor
        rw [now_call]
        exact hinstant.trans hc
      · rw [hnext]
        exact .held _ _
      · rw [hnext]
        exact .inl rfl
      · rw [hnext, nowAt_held, hmoved]
        exact hsaid
  | free htimed hphase hfree hbroken hvalue =>
    obtain ⟨hfree', hvalue'⟩ := free_call htimed hphase hfree hc haudio hseek hvalue
    have hbroken' : stall'.broken = true := by
      rcases hsame with ⟨rfl, -⟩ | ⟨hbroken', -⟩
      · rw [Stall.elapse, if_pos hbroken]
        exact hbroken
      · exact hbroken'
    refine .free (htimed.call hphase hc) (by rw [clock_call]; exact hphase.call c) hfree'
      hbroken' ?_
    rwa [hmoved, moved_broken hbroken, ← Nat.add_assoc, now_call]

theorem moved_new (media : ℕ) (broken : Bool) :
    Stall.moved { media := media, broken := broken } = 0 := by
  rw [Stall.moved]
  dsimp only
  omega

/-- A stall begins with every audio that is observed. -/
theorem stalled_observe (hphase : t.clock.Phase)
    (hv : v ∈ (t.call (.observeAudio media instant)).clock.nowAt instant) :
    Stalled v (t.call (.observeAudio media instant))
      { media := media, broken := t.clock.paused } := by
  obtain ⟨clock, now, sought, submitted, played, froze, stall⟩ := t
  rw [clock_call] at hv
  dsimp only at hphase hv ⊢
  have hdry (clock' : MediaClock) (hclock' : clock'.call (.observeAudio media instant) =
      ⟨some ⟨media, instant, true⟩, false, none⟩)
      (hv : v ∈ (clock'.call (.observeAudio media instant)).nowAt instant) :
      Stalled v (Trace.call ⟨clock', now, sought, submitted, played, froze, stall⟩
        (.observeAudio media instant)) { media := media, broken := false } := by
    rw [hclock', nowAt_running, reading_audio, Option.mem_some_iff] at hv
    refine @Stalled.dry v _ _ instant ?_ ?_ ?_ rfl rfl hv.symm
    · rw [clock_call, hclock']
    · rw [now_call]
      exact le_rfl
    · rw [now_call]
      exact (Nat.sub_self instant).symm
  have hfree (clock' : MediaClock) (position : ℕ)
      (hclock' : clock'.call (.observeAudio media instant) =
        ⟨some ⟨media, instant, true⟩, true, some position⟩)
      (hv : v ∈ (clock'.call (.observeAudio media instant)).nowAt instant) :
      Stalled v (Trace.call ⟨clock', now, sought, submitted, played, froze, stall⟩
        (.observeAudio media instant)) { media := media, broken := true } := by
    refine .free ?_ ?_ ?_ rfl ?_
    · intro anchor hanchor
      rw [clock_call, hclock'] at hanchor
      cases hanchor
      rw [now_call]
      exact le_rfl
    · rw [clock_call, hclock']
      exact .held _ _
    · rw [clock_call, hclock']
      exact .inl rfl
    · rw [moved_new, Nat.add_zero, clock_call, now_call]
      exact hv
  cases hphase with
  | unstarted paused =>
    cases paused with
    | true => exact hfree _ _ rfl hv
    | false => exact hdry _ rfl hv
  | running anchor => exact hdry _ rfl hv
  | held anchor position => exact hfree _ _ rfl hv

/-- So it goes on under any number of such calls. -/
theorem stalled_foldl (h : Stalled base t stall)
    (hstall : stall ∈ t.stall) (hnow : ∀ c ∈ middle, t.now ≤ c.instant) (horder : InOrder middle)
    (hmiddle : ∀ c ∈ middle, c.isAudio = false ∧ c.isSeek = false) :
    ∃ stall' ∈ (middle.foldl Trace.call t).stall,
      Stalled base (middle.foldl Trace.call t) stall' := by
  induction middle generalizing t stall with
  | nil => exact ⟨stall, hstall, h⟩
  | cons c middle ih =>
    obtain ⟨⟨haudio, hseek⟩, hrest⟩ := List.forall_mem_cons.mp hmiddle
    obtain ⟨horder, horders⟩ := List.pairwise_cons.mp horder
    obtain ⟨stall', hstall', h'⟩ := h.call hstall (hnow c List.mem_cons_self) haudio hseek
    refine ih h' hstall' (fun c' hc' => ?_) horders hrest
    rw [now_call]
    exact horder _ (List.mem_map_of_mem hc')

/-- **A stall moves the clock by `Stall.moved`.** -/
theorem said_in_stall (horder : InOrder (before ++ .observeAudio media instant :: middle))
    (hmiddle : ∀ c ∈ middle, c.isAudio = false ∧ c.isSeek = false)
    (hj : (trace (before ++ .observeAudio media instant :: middle)).now ≤ j)
    (hv : v ∈ said (before ++ [.observeAudio media instant]) instant) :
    ∃ stall ∈ (trace (before ++ .observeAudio media instant :: middle)).stall,
      v + (stall.elapse
        ((trace (before ++ .observeAudio media instant :: middle)).unpaused j)).moved ∈
        said (before ++ .observeAudio media instant :: middle) j := by
  have hsplit : trace (before ++ .observeAudio media instant :: middle) =
      middle.foldl Trace.call ((trace before).call (.observeAudio media instant)) := by
    rw [trace_append]
    rfl
  rw [said, trace_concat] at hv
  obtain ⟨-, hback, -⟩ := inOrder_append.mp horder
  obtain ⟨hfirst, hrest⟩ := List.pairwise_cons.mp hback
  obtain ⟨stall, hstall, h⟩ := stalled_foldl (stalled_observe (phase_trace before) hv) rfl
    (fun c hc => by rw [now_call]; exact hfirst _ (List.mem_map_of_mem hc)) hrest hmiddle
  rw [← hsplit] at hstall h
  exact ⟨stall, hstall, h.said hj⟩

theorem MediaClock.Phase.exists_nowAt {clock : MediaClock} (h : clock.Phase) {anchor : Anchor}
    (hanchor : anchor ∈ clock.anchor) (i : ℕ) : ∃ v, v ∈ clock.nowAt i := by
  cases h with
  | unstarted paused => cases hanchor
  | running anchor' => exact ⟨_, nowAt_running anchor' i⟩
  | held anchor' position => exact ⟨_, nowAt_held anchor' position i⟩

theorem inOrder_front (h : InOrder (before ++ .observeAudio media instant :: (middle ++ after))) :
    InOrder (before ++ .observeAudio media instant :: middle) := by
  rw [← List.cons_append, ← List.append_assoc] at h
  exact (inOrder_append.mp h).1

/-- **No stall moves the clock by more than the lead exactly if none is that
long.** -/
theorem stallsBounded_iff (horder : InOrder calls) : StallsBounded calls ↔ StallsShort calls := by
  constructor
  · intro h before media instant middle after hsplit hmiddle j hj stall hstall
    obtain ⟨v, hv⟩ : ∃ v, v ∈ said (before ++ [.observeAudio media instant]) instant := by
      have hanchor : ⟨media, instant, true⟩ ∈
          (trace (before ++ [.observeAudio media instant])).clock.anchor := by
        rw [trace_concat, clock_call, anchor_observe]
        rfl
      exact (phase_trace _).exists_nowAt hanchor instant
    obtain ⟨stall', hstall', hsaid⟩ :=
      said_in_stall (inOrder_front (hsplit ▸ horder)) hmiddle hj.1 hv
    obtain rfl := Option.mem_unique hstall hstall'
    exact Nat.le_of_add_le_add_left (h before media instant middle after hsplit hmiddle j hj v hv
      _ hsaid)
  · intro h before media instant middle after hsplit hmiddle j hj v hv w hw
    obtain ⟨stall, hstall, hsaid⟩ :=
      said_in_stall (inOrder_front (hsplit ▸ horder)) hmiddle hj.1 hv
    obtain rfl := Option.mem_unique hw hsaid
    exact Nat.add_le_add_left (h before media instant middle after hsplit hmiddle j hj stall
      hstall) v

/-! ### Below the position sought to -/

/-- What a clock that has been moved keeps: where it froze, and on what. -/
structure Trace.Sought (t : Trace) : Prop where
  phase : t.clock.Phase
  timed : t.Timed
  froze : ∀ frozen ∈ t.froze,
    t.clock.paused = true ∧ t.clock.frozen = some (frozen.1.reading frozen.2)
  anchored : ∀ position ∈ t.sought, t.clock.anchor.isSome
  /-- Held, it is not past the time played, unless it froze on audio. -/
  held : ∀ position ∈ t.sought, ∀ v ∈ t.clock.frozen,
    (∀ frozen ∈ t.froze, frozen.1.buffered = false) → v ≤ position + t.played

/-- The clock is not past the position sought to and the time played since. -/
def Trace.Played (t : Trace) : Prop :=
  ¬ t.FromAudio → ∀ position ∈ t.sought, ∀ v ∈ t.clock.nowAt t.now, v ≤ position + t.played

theorem sought_call {t : Trace} (hseek : c.isSeek = false) : (t.call c).sought = t.sought ∧
    (t.call c).played = t.played + t.unpaused c.instant := by
  cases c with
  | observeAudio media instant | startVideoMaster firstFrame instant => exact ⟨rfl, rfl⟩
  | setPaused paused instant =>
    rw [Trace.call]
    dsimp only
    split
    · exact ⟨rfl, rfl⟩
    · split <;> exact ⟨rfl, rfl⟩
  | seekTo position instant => cases hseek

/-- Off audio the clock is free. -/
theorem free_of_not_fromAudio (h : ¬ t.FromAudio) : t.clock.Free := by
  refine .inr fun anchor hanchor => ?_
  by_contra hbuffered
  exact h ⟨anchor, hanchor, Bool.eq_true_of_not_eq_false hbuffered⟩

namespace Trace.Sought

variable {t t' : Trace} {anchor : Anchor} {position instant : ℕ}

/-- Without a seek there is nothing to be past. -/
theorem of_unsought (hphase : t.clock.Phase) (htimed : t.Timed) (hsought : t.sought = none)
    (hfroze : t.froze = none) : t.Played ∧ t.Sought := by
  refine ⟨fun _ position hposition => ?_, hphase, htimed, fun frozen hfrozen => ?_,
    fun position hposition => ?_, fun position hposition => ?_⟩
  · rw [hsought] at hposition
    cases hposition
  · rw [hfroze] at hfrozen
    cases hfrozen
  · rw [hsought] at hposition
    cases hposition
  · rw [hsought] at hposition
    cases hposition

/-- Nothing happens but that time goes by. -/
theorem quiet (h : t.Sought) (hplayed : t.Played) (hclock : t'.clock = t.clock)
    (hnow : t.now ≤ t'.now) (hsought : t'.sought = t.sought)
    (hplayed' : t'.played = t.played + t.unpaused t'.now) (hfroze : t'.froze = t.froze) :
    t'.Played ∧ t'.Sought := by
  refine ⟨?_, hclock ▸ h.phase, ?_, ?_, ?_, ?_⟩
  · intro haudio position hposition v hv
    have haudio' : ¬ t.FromAudio := by
      rintro ⟨anchor, hanchor, hbuffered⟩
      exact haudio ⟨anchor, hclock ▸ hanchor, hbuffered⟩
    rw [hsought] at hposition
    have hsome : t.clock.anchor.isSome := h.anchored position hposition
    obtain ⟨anchor, hanchor⟩ := Option.isSome_iff_exists.mp hsome
    obtain ⟨u, hu⟩ := h.phase.exists_nowAt hanchor t.now
    have hlater := free_value h.timed h.phase (free_of_not_fromAudio haudio') hnow hu
    rw [hclock] at hv
    obtain rfl := Option.mem_unique hv hlater
    have hbefore := hplayed haudio' position hposition u hu
    omega
  · intro anchor hanchor
    rw [hclock] at hanchor
    exact (h.timed anchor hanchor).trans hnow
  · intro frozen hfrozen
    rw [hfroze] at hfrozen
    rw [hclock]
    exact h.froze frozen hfrozen
  · intro position hposition
    rw [hsought] at hposition
    rw [hclock]
    exact h.anchored position hposition
  · intro position hposition v hv hunbuffered
    rw [hsought] at hposition
    rw [hclock] at hv
    rw [hfroze] at hunbuffered
    have hheld := h.held position hposition v hv hunbuffered
    omega

section

variable (h : t.Sought)
include h

theorem unstarted {paused : Bool} (hclock : t.clock = ⟨none, paused, none⟩) :
    t.sought = none ∧ t.froze = none := by
  constructor
  · rw [Option.eq_none_iff_forall_not_mem]
    intro position hposition
    have hsome := h.anchored position hposition
    rw [hclock] at hsome
    cases hsome
  · rw [Option.eq_none_iff_forall_not_mem]
    intro frozen hfrozen
    have hsome := (h.froze frozen hfrozen).2
    rw [hclock] at hsome
    cases hsome

theorem unfrozen (hpaused : t.clock.paused = false) : t.froze = none := by
  rw [Option.eq_none_iff_forall_not_mem]
  intro frozen hfrozen
  have hheld := (h.froze frozen hfrozen).1
  rw [hpaused] at hheld
  cases hheld

theorem observe (media instant : ℕ) (hc : t.now ≤ instant) :
    (t.call (.observeAudio media instant)).Played ∧
      (t.call (.observeAudio media instant)).Sought := by
  have hanchor := anchor_observe t.clock media instant
  refine ⟨?_, ?_, Timed.call (c := .observeAudio media instant) h.timed h.phase hc, ?_, ?_, ?_⟩
  · intro haudio
    refine absurd ⟨⟨media, instant, true⟩, ?_, rfl⟩ haudio
    rw [clock_call, hanchor]
    rfl
  · rw [clock_call]
    exact h.phase.call _
  · intro frozen hfrozen
    obtain ⟨hpaused, hheld⟩ := h.froze frozen hfrozen
    rw [clock_call]
    exact h.phase.still hpaused rfl rfl hheld
  · intro position hposition
    rw [clock_call, hanchor]
    rfl
  · intro position hposition v hv hunbuffered
    rw [clock_call] at hv
    have hsome := h.anchored position hposition
    have hheld := h.held position hposition
    have hphase := h.phase
    have hplayed : (t.call (.observeAudio media instant)).played =
        t.played + t.unpaused instant := rfl
    rw [hplayed]
    generalize t.clock = clock at hv hsome hheld hphase
    cases hphase with
    | unstarted paused => cases hsome
    | running anchor => cases hv
    | held anchor position' =>
      obtain rfl : position' = v := Option.some.inj hv
      have hle := hheld position' rfl hunbuffered
      omega

theorem seek (position instant : ℕ) (hc : t.now ≤ instant) :
    (t.call (.seekTo position instant)).Played ∧ (t.call (.seekTo position instant)).Sought := by
  have hanchor : (t.clock.call (.seekTo position instant)).anchor =
      some ⟨position, instant, false⟩ := by
    change (t.clock.seekToAt position instant).anchor = _
    unfold MediaClock.seekToAt
    dsimp only
    split <;> rfl
  have hsaid : (t.clock.call (.seekTo position instant)).nowAt instant = some position := by
    change (t.clock.seekToAt position instant).nowAt instant = _
    have hread := reading_free position instant instant
    rw [Nat.sub_self, Nat.add_zero] at hread
    unfold MediaClock.seekToAt MediaClock.nowAt
    cases t.clock.paused with
    | true => simp
    | false => simp [MediaClock.runningAt, hread]
  have hfrozen : ∀ v ∈ (t.clock.call (.seekTo position instant)).frozen, v = position := by
    have hphase := h.phase
    generalize t.clock = clock at hphase
    cases hphase with
    | unstarted paused =>
      cases paused with
      | true => rintro v ⟨⟩; rfl
      | false => rintro v ⟨⟩
    | running anchor => rintro v ⟨⟩
    | held anchor position' => rintro v ⟨⟩; rfl
  refine ⟨?_, ?_, Timed.call (c := .seekTo position instant) h.timed h.phase hc, ?_, ?_, ?_⟩
  · rintro - position' ⟨⟩ v hv
    rw [clock_call, now_call] at hv
    obtain rfl : position = v := Option.some.inj (hsaid.symm.trans hv)
    exact Nat.le_add_right _ _
  · rw [clock_call]
    exact h.phase.call _
  · rintro frozen ⟨⟩
  · intro position' _
    rw [clock_call, hanchor]
    rfl
  · rintro position' ⟨⟩ v hv -
    rw [clock_call] at hv
    rw [hfrozen v hv]
    exact Nat.le_add_right _ _

theorem pause (hplayed : t.Played) {anchor : Anchor}
    (hclock : t.clock = ⟨some anchor, false, none⟩) (hc : t.now ≤ instant) :
    (t.call (.setPaused true instant)).Played ∧ (t.call (.setPaused true instant)).Sought := by
  have hnext : (t.call (.setPaused true instant)).clock =
      ⟨some anchor, true, some (anchor.reading instant)⟩ := by
    rw [clock_call, hclock, call_pause]
  have hfroze : (t.call (.setPaused true instant)).froze = some (anchor, instant) := by
    rw [Trace.call]
    dsimp only
    rw [hclock]
    rfl
  obtain ⟨hsought, hplayed'⟩ := @sought_call (.setPaused true instant) t rfl
  -- off an anchor that is not audio's, the clock has moved by the time that went by
  have hbelow (hbuffered : anchor.buffered = false) (position : ℕ)
      (hposition : position ∈ t.sought) :
      anchor.reading instant ≤ position + (t.played + t.unpaused instant) := by
    have haudio : ¬ t.FromAudio := by
      rintro ⟨anchor', hanchor', hbuffered'⟩
      rw [hclock] at hanchor'
      cases hanchor'
      rw [hbuffered] at hbuffered'
      cases hbuffered'
    have hnow : anchor.reading t.now ∈ t.clock.nowAt t.now := by
      rw [hclock, nowAt_running]
      rfl
    have hlater := free_value h.timed h.phase (free_of_not_fromAudio haudio) hc hnow
    rw [hclock, nowAt_running, Option.mem_some_iff] at hlater
    have hbefore := hplayed haudio position hposition _ hnow
    omega
  refine ⟨?_, ?_, Timed.call (c := .setPaused true instant) h.timed h.phase hc, ?_, ?_, ?_⟩
  · intro haudio position hposition v hv
    rw [hsought] at hposition
    rw [hnext, nowAt_held, Option.mem_some_iff] at hv
    rw [hplayed', ← hv]
    refine hbelow ?_ position hposition
    by_contra hbuffered
    refine haudio ⟨anchor, ?_, Bool.eq_true_of_not_eq_false hbuffered⟩
    rw [hnext]
    rfl
  · rw [hnext]
    exact .held _ _
  · intro frozen hfrozen
    rw [hfroze] at hfrozen
    cases hfrozen
    rw [hnext]
    exact ⟨rfl, rfl⟩
  · intro position _
    rw [hnext]
    rfl
  · intro position hposition v hv hunbuffered
    rw [hsought] at hposition
    rw [hnext] at hv
    obtain rfl : anchor.reading instant = v := Option.some.inj hv
    rw [hplayed']
    exact hbelow (hunbuffered _ hfroze) position hposition

/-- Only here may the clock come to be past the time played. -/
theorem resume {anchor : Anchor} {position : ℕ}
    (hclock : t.clock = ⟨some anchor, true, some position⟩) (hc : t.now ≤ instant) :
    ((t.call (.setPaused false instant)).Played ↔ ResumesInTime t (.setPaused false instant)) ∧
      (t.call (.setPaused false instant)).Sought := by
  have hnext : (t.call (.setPaused false instant)).clock =
      ⟨some ⟨position, instant, false⟩, false, none⟩ := by
    rw [clock_call, hclock]
    rfl
  have hfroze : (t.call (.setPaused false instant)).froze = none := by
    rw [Trace.call]
    dsimp only
    rw [hclock]
    rfl
  have hunpaused : t.unpaused instant = 0 := by
    rw [Trace.unpaused, hclock]
    rfl
  obtain ⟨hsought, hplayed⟩ := @sought_call (.setPaused false instant) t rfl
  have hplayed' : (t.call (.setPaused false instant)).played = t.played := by
    rw [hplayed]
    exact congrArg (t.played + ·) hunpaused
  have hread := reading_free position instant instant
  rw [Nat.sub_self, Nat.add_zero] at hread
  have hsaid : (t.call (.setPaused false instant)).clock.nowAt
      (t.call (.setPaused false instant)).now = some position := by
    rw [hnext, now_call, nowAt_running]
    exact congrArg some hread
  have haudio : ¬ (t.call (.setPaused false instant)).FromAudio := by
    rintro ⟨anchor', hanchor', hbuffered⟩
    rw [hnext] at hanchor'
    cases hanchor'
    cases hbuffered
  have hfrozen : t.clock.frozen = some position := by rw [hclock]
  refine ⟨⟨?_, ?_⟩, ?_, Timed.call (c := .setPaused false instant) h.timed h.phase hc, ?_, ?_, ?_⟩
  · intro hafter sought hmem frozen hfroze' hbuffered
    have hle := hafter haudio sought (hsought ▸ hmem) position hsaid
    obtain ⟨-, hreading⟩ := h.froze frozen hfroze'
    obtain rfl : position = frozen.1.reading frozen.2 :=
      Option.some.inj (hfrozen.symm.trans hreading)
    rw [hplayed'] at hle
    unfold Anchor.reading at hle
    rw [if_pos hbuffered] at hle
    omega
  · intro hresumes _ sought hmem v hv
    rw [hsought] at hmem
    obtain rfl : position = v := Option.some.inj (hsaid.symm.trans hv)
    rw [hplayed']
    by_cases hunbuffered : ∀ frozen ∈ t.froze, frozen.1.buffered = false
    · exact h.held sought hmem position hfrozen hunbuffered
    · obtain ⟨frozen, hmem', hbuffered⟩ : ∃ frozen ∈ t.froze, frozen.1.buffered = true := by
        by_contra hnone
        refine hunbuffered fun frozen hmem' => Bool.eq_false_of_not_eq_true fun hbuffered => ?_
        exact hnone ⟨frozen, hmem', hbuffered⟩
      have hintime := hresumes sought hmem frozen hmem' hbuffered
      obtain ⟨-, hreading⟩ := h.froze frozen hmem'
      have hvalue : position = frozen.1.reading frozen.2 :=
        Option.some.inj (hfrozen.symm.trans hreading)
      unfold Anchor.reading at hvalue
      rw [if_pos hbuffered] at hvalue
      omega
  · rw [hnext]
    exact .running _
  · intro frozen hfrozen'
    rw [hfroze] at hfrozen'
    cases hfrozen'
  · intro sought _
    rw [hnext]
    rfl
  · intro sought _ v hv
    rw [hnext] at hv
    cases hv

/-- A pause of a paused clock, or a resume of one that runs, is time going by.
-/
theorem setPaused_same {paused : Bool} (hplayed : t.Played)
    (hsame : t.clock.paused = paused) (hc : t.now ≤ instant) :
    (t.call (.setPaused paused instant)).Played ∧ (t.call (.setPaused paused instant)).Sought := by
  have hclock : (t.call (.setPaused paused instant)).clock = t.clock := by
    rw [clock_call]
    exact if_pos hsame
  have hfroze : (t.call (.setPaused paused instant)).froze = t.froze := by
    rw [Trace.call]
    dsimp only
    rw [if_pos hsame]
  obtain ⟨hsought, hplayed'⟩ := @sought_call (.setPaused paused instant) t rfl
  refine h.quiet hplayed hclock ?_ hsought ?_ hfroze
  · rw [now_call]
    exact hc
  · rw [now_call]
    exact hplayed'

end

/-- A clock that has not started says nothing, paused or not. -/
theorem setPaused_unstarted {before paused : Bool} (h : t.Sought)
    (hclock : t.clock = ⟨none, before, none⟩) (hc : t.now ≤ instant) :
    (t.call (.setPaused paused instant)).Played ∧ (t.call (.setPaused paused instant)).Sought := by
  obtain ⟨hsought, hfroze⟩ := h.unstarted hclock
  refine of_unsought ?_ (Timed.call (c := .setPaused paused instant) h.timed h.phase hc) ?_ ?_
  · rw [clock_call]
    exact h.phase.call _
  · rw [(@sought_call (.setPaused paused instant) t rfl).1]
    exact hsought
  · rw [Trace.call]
    dsimp only
    split
    · exact hfroze
    · split
      · rw [hclock]
        rfl
      · rfl

theorem startVideoMaster (h : t.Sought) (hplayed : t.Played) (firstFrame instant : ℕ)
    (hc : t.now ≤ instant) : (t.call (.startVideoMaster firstFrame instant)).Played ∧
      (t.call (.startVideoMaster firstFrame instant)).Sought := by
  cases hanchor : t.clock.anchor with
  | none =>
    obtain ⟨paused, hclock⟩ : ∃ paused, t.clock = ⟨none, paused, none⟩ := by
      have hphase := h.phase
      generalize t.clock = clock at hphase hanchor
      cases hphase with
      | unstarted paused => exact ⟨paused, rfl⟩
      | running anchor | held anchor position => cases hanchor
    obtain ⟨hsought, hfroze⟩ := h.unstarted hclock
    refine of_unsought ?_ (Timed.call (c := .startVideoMaster firstFrame instant) h.timed h.phase
      hc) hsought hfroze
    rw [clock_call]
    exact h.phase.call _
  | some anchor =>
    have hclock : t.clock.call (.startVideoMaster firstFrame instant) = t.clock := by
      change t.clock.startVideoMasterAt firstFrame instant = _
      rw [MediaClock.startVideoMasterAt, hanchor]
      rfl
    refine h.quiet hplayed ?_ ?_ rfl rfl rfl
    · rw [clock_call, hclock]
    · rw [now_call]
      exact hc

/-- **What one call does to the time played.** -/
theorem call (h : t.Sought) (hplayed : t.Played) (hc : t.now ≤ c.instant) :
    ((t.call c).Played ↔ ResumesInTime t c) ∧ (t.call c).Sought := by
  cases c with
  | observeAudio media instant =>
    obtain ⟨hnext, hsought⟩ := h.observe media instant hc
    exact ⟨iff_of_true hnext trivial, hsought⟩
  | startVideoMaster firstFrame instant =>
    obtain ⟨hnext, hsought⟩ := h.startVideoMaster hplayed firstFrame instant hc
    exact ⟨iff_of_true hnext trivial, hsought⟩
  | seekTo position instant =>
    obtain ⟨hnext, hsought⟩ := h.seek position instant hc
    exact ⟨iff_of_true hnext trivial, hsought⟩
  | setPaused paused instant =>
    have hphase := h.phase
    generalize hclock : t.clock = clock at hphase
    cases hphase with
    | unstarted before =>
      obtain ⟨hnext, hsought⟩ := @setPaused_unstarted _ _ _ paused h hclock hc
      refine ⟨iff_of_true hnext ?_, hsought⟩
      cases paused with
      | true => trivial
      | false =>
        intro position hposition
        rw [(h.unstarted hclock).1] at hposition
        cases hposition
    | running anchor =>
      cases paused with
      | true =>
        obtain ⟨hnext, hsought⟩ := h.pause hplayed hclock hc
        exact ⟨iff_of_true hnext trivial, hsought⟩
      | false =>
        obtain ⟨hnext, hsought⟩ := h.setPaused_same hplayed (by rw [hclock]) hc
        refine ⟨iff_of_true hnext fun position _ frozen hfrozen => ?_, hsought⟩
        rw [h.unfrozen (by rw [hclock])] at hfrozen
        cases hfrozen
    | held anchor position =>
      cases paused with
      | true =>
        obtain ⟨hnext, hsought⟩ := h.setPaused_same hplayed (by rw [hclock]) hc
        exact ⟨iff_of_true hnext trivial, hsought⟩
      | false => exact h.resume hclock hc

end Trace.Sought

theorem along_now (horder : InOrder calls) :
    Along Trace.call (fun t c => t.now ≤ c.instant) calls {} := by
  refine along_iff_forall_split.mpr ?_
  rintro before c after rfl
  exact (asked_at_call horder).1.1

/-- No reading is past it exactly if every call resumes in time. -/
theorem always_played_iff (horder : InOrder calls) :
    (∀ before after, calls = before ++ after → (trace before).Played) ↔
      Throughout ResumesInTime calls := by
  refine (forall_take_iff_split Trace.Played).symm.trans ?_
  obtain ⟨hplayed, hsought⟩ := @Trace.Sought.of_unsought {} (.unstarted false)
    (fun _ hanchor => by cases hanchor) rfl rfl
  exact along_iff_under Trace.Sought Trace.Played hsought hplayed (along_now horder)
    fun t c h hplayed hc => ⟨(h.call hplayed hc).1, fun _ => (h.call hplayed hc).2⟩

theorem timed_trace (horder : InOrder calls) : (trace calls).Timed := by
  induction calls using List.reverseRecOn with
  | nil => rintro anchor ⟨⟩
  | append_singleton calls c ih =>
    rw [trace_concat]
    exact (ih (inOrder_append.mp horder).1).call (phase_trace calls) (asked_at_call horder).1.1

/-- **Not following audio, the clock is never past the position sought to and
the time played, exactly if no pause froze it on audio that was.** -/
theorem belowSought_iff (horder : InOrder calls) :
    BelowSought calls ↔ Throughout ResumesInTime calls := by
  rw [← always_played_iff horder]
  constructor
  · intro h before after hsplit haudio position hposition v hv
    have hle := h before after hsplit haudio position hposition _ (asked_now (hsplit ▸ horder)) v hv
    have hzero : (trace before).unpaused (trace before).now = 0 := by
      rw [Trace.unpaused, Nat.sub_self, ite_self]
    rwa [hzero, Nat.add_zero] at hle
  · intro h before after hsplit haudio position hposition i hi v hv
    have hplayed := h before after hsplit haudio position hposition
    have htimed := timed_trace (inOrder_append.mp (hsplit ▸ horder)).1
    have hphase := phase_trace before
    have hfree := free_of_not_fromAudio haudio
    obtain ⟨u, hu⟩ : ∃ u, u ∈ (trace before).clock.nowAt (trace before).now := by
      cases hanchor : (trace before).clock.anchor with
      | none =>
        rw [said] at hv
        generalize (trace before).clock = clock at hphase hv hanchor
        cases hphase with
        | unstarted paused => cases paused <;> cases hv
        | running anchor | held anchor position' => cases hanchor
      | some anchor => exact hphase.exists_nowAt hanchor _
    have hlater := free_value htimed hphase hfree hi.1 hu
    obtain rfl := Option.mem_unique hv hlater
    have hbefore := hplayed u hu
    omega

/-! ### Together -/

/-- **Whatever is called, the clock is unstarted, running or held**, and an
anchor with audio behind it is the last that was submitted.  In order, no anchor
is ahead of its call. -/
theorem clock_consistent (calls : List Call) : (trace calls).clock.Phase ∧
    (trace calls).Submits ∧ (InOrder calls → (trace calls).Timed) :=
  ⟨phase_trace calls, submits_trace calls, timed_trace⟩

/-- **What is asked of the clock holds exactly if audio keeps up, audio
submitted during a pause reaches the frozen position, the clock resumes in time,
and its stalls are short.** -/
theorem media_time_iff (calls : List Call) (horder : InOrder calls) :
    (NeverBack calls ↔ Throughout KeepsUp calls) ∧ PausesHold calls ∧
      (BelowAudio calls ↔ Throughout ReachesFrozen calls) ∧
      (BelowSought calls ↔ Throughout ResumesInTime calls) ∧
      (StallsBounded calls ↔ StallsShort calls) :=
  ⟨neverBack_iff horder, pausesHold calls, belowAudio_iff horder, belowSought_iff horder,
    stallsBounded_iff horder⟩

/-- Ten seconds of audio, and a pause of half a minute. -/
def pausedOnce : List Call :=
  [.observeAudio 10000000000 0, .setPaused true 100000000, .setPaused false 30100000000]

theorem media_time_iff_pausedOnce : NeverBack pausedOnce ∧ PausesHold pausedOnce := by
  have h := media_time_iff pausedOnce (by decide)
  refine ⟨h.1.mpr ⟨?_, trivial, trivial, trivial⟩, h.2.1⟩
  rintro - anchor ⟨⟩

/-- Audio does not go back, nor below the position sought to. -/
def AudioInOrder (trace : Trace) : Call → Prop
  | .observeAudio media _ =>
    (∀ last ∈ trace.submitted, last ≤ media) ∧ ∀ position ∈ trace.sought, position ≤ media
  | _ => True

/-- A tenth of a second after the first block, twenty milliseconds more of
audio. -/
def slowAudio : List Call := [.observeAudio 10000000000 0, .observeAudio 10020000000 100000000]

theorem slow_audio_goes_back :
    InOrder slowAudio ∧ Throughout AudioInOrder slowAudio ∧ ¬ NeverBack slowAudio := by
  have horder : InOrder slowAudio := by decide
  refine ⟨horder, ⟨⟨?_, ?_⟩, ⟨?_, ?_⟩, trivial⟩, fun h => ?_⟩
  · rintro last ⟨⟩
  · rintro position ⟨⟩
  · intro last hlast
    obtain rfl : 10000000000 = last := Option.some.inj hlast
    decide
  · rintro position ⟨⟩
  · have hkeeps := ((neverBack_iff horder).mp h).2.1 rfl ⟨10000000000, 0, true⟩ rfl
    revert hkeeps
    decide

end Castaway.Pipeline
