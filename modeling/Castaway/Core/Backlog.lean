import Castaway.Core.Ownership

/-!
# The manager and its own queue

The channel that the manager drains is bounded, and a source that sends into it
waits for room.  So does a control surface that is called by the manager, inside
a turn, and answers by emitting events of its own: then the manager waits for
room that nobody but itself can make.

## Strategy

`Loop` is the manager with its two channels, and a turn under way first queues
what the control surface emits.  Such a turn is `Stuck` when the channel is
full.

**The headline result** is `never_waits_iff`: no turn ever gets stuck exactly
when each finds room for all that it makes a control surface emit, and nobody
takes that room from it.  Then every message that is queued is heard
(`eventually_heard`).
-/

namespace Castaway.Core

open List

variable {P : Payloads}

/-- What the control surfaces emit when they are called. -/
structure Emissions (P : Payloads) where
  issue : P.RemoteControl → ControlTxn P → List (SourceMessage P)
  mediaEnded : P.RemoteControl → PlaybackEnd → List (SourceMessage P)

/-- What a turn makes the control surface emit: a preemption asks it to pause,
an end report is passed on to it. -/
def SessionManager.provokes (m : SessionManager P) (emissions : Emissions P) :
    Turn P → List (SourceMessage P)
  | .heard _ message =>
    if message.event.takesPanel && m.active.isSome && m.active != some message.source then
      (m.remote.map fun remote => emissions.issue remote .pause).getD []
    else []
  | .ended _ ending =>
    if m.active.isSome then
      (m.remote.map fun remote => emissions.mediaEnded remote ending).getD []
    else []

/-- A turn under way, and what it still has to queue. -/
structure Serving (P : Payloads) where
  turn : Turn P
  emits : List (SourceMessage P)

/-- The loop of `run`, and how many messages it has taken. -/
structure Loop (P : Payloads) where
  manager : SessionManager P
  queue : List (SourceMessage P)
  reports : List PlaybackEnd
  serving : Option (Serving P)
  taken : ℕ

def endChannelDepth : ℕ := 4

/-- One step of a source, of the pipeline or of the manager. -/
inductive LoopAction (P : Payloads)
  | send (message : SourceMessage P)
  | report (ending : PlaybackEnd)
  | serveMessage (answers : Answers P) (emissions : Emissions P)
  | serveReport (answers : Answers P) (emissions : Emissions P)
  /-- The turn under way goes on. -/
  | advance

namespace Loop

def new (display osd : Bool) (config : SessionConfig) : Loop P where
  manager := .new display osd config
  queue := []
  reports := []
  serving := none
  taken := 0

/-- What the turn under way still has to queue. -/
def pending (s : Loop P) : List (SourceMessage P) := (s.serving.map Serving.emits).getD []

section Step

variable (capacity : ℕ)

def step (s : Loop P) : LoopAction P → Loop P
  | .send message =>
    if s.queue.length < capacity then { s with queue := s.queue ++ [message] } else s
  | .report ending =>
    -- a report that finds no room is dropped
    if s.reports.length < endChannelDepth then { s with reports := s.reports ++ [ending] } else s
  | .serveMessage answers emissions =>
    match s.serving, s.queue with
    | none, message :: rest =>
      let turn := .heard answers message
      { s with
        queue := rest
        serving := some ⟨turn, s.manager.provokes emissions turn⟩
        taken := s.taken + 1 }
    | _, _ => s
  | .serveReport answers emissions =>
    match s.serving, s.reports with
    | none, ending :: rest =>
      let turn := .ended answers ending
      { s with
        reports := rest
        serving := some ⟨turn, s.manager.provokes emissions turn⟩ }
    | _, _ => s
  | .advance =>
    match s.serving with
    | none => s
    | some ⟨turn, []⟩ => { s with manager := s.manager.turn turn, serving := none }
    | some ⟨turn, message :: rest⟩ =>
      if s.queue.length < capacity then
        { s with queue := s.queue ++ [message], serving := some ⟨turn, rest⟩ }
      else s

def run (s : Loop P) (actions : List (LoopAction P)) : Loop P := actions.foldl (step capacity) s

/-- The manager waits for room in the channel that only it drains. -/
def Stuck (s : Loop P) : Prop := s.pending ≠ [] ∧ capacity ≤ s.queue.length

/-- A turn begins with room for all that it makes a control surface emit, and
until it is through nobody takes that room. -/
def Roomy (s : Loop P) : LoopAction P → Prop
  | .send _ => s.pending ≠ [] → s.queue.length + s.pending.length < capacity
  | .serveMessage answers emissions => s.serving = none → ∀ message rest,
      s.queue = message :: rest →
        rest.length + (s.manager.provokes emissions (.heard answers message)).length ≤ capacity
  | .serveReport answers emissions => s.serving = none → ∀ ending rest,
      s.reports = ending :: rest →
        s.queue.length + (s.manager.provokes emissions (.ended answers ending)).length ≤ capacity
  | .report _ | .advance => True

end Step

variable {capacity : ℕ} {s : Loop P}

theorem pending_of_serving {turn : Turn P} {emits : List (SourceMessage P)}
    (h : s.serving = some ⟨turn, emits⟩) : s.pending = emits := by
  rw [pending, h]
  rfl

theorem pending_of_idle (h : s.serving = none) : s.pending = [] := by
  rw [pending, h]
  rfl

/-! ## What a step does to the queue -/

/-- What a step does: nothing to the queue and the turn under way; queue a
message; take the head of the queue and begin a turn; begin a turn with a
report; queue the next event of the turn; or end it. -/
inductive Step (capacity : ℕ) (s t : Loop P) : LoopAction P → Prop
  | kept {action : LoopAction P} (hserving : t.serving = s.serving) (hqueue : t.queue = s.queue)
      (htaken : t.taken = s.taken)
      (hsend : ∀ message, action = .send message → capacity ≤ s.queue.length)
      (hadvance : action = .advance → s.serving = none ∨ s.Stuck capacity)
      (hserve : ∀ answers emissions, action = .serveMessage answers emissions →
        s.serving ≠ none ∨ s.queue = [])
      (hreport : ∀ answers emissions, action = .serveReport answers emissions →
        s.serving ≠ none ∨ s.reports = []) : Step capacity s t action
  | sent {message : SourceMessage P} (hroom : s.queue.length < capacity)
      (hserving : t.serving = s.serving) (hqueue : t.queue = s.queue ++ [message])
      (htaken : t.taken = s.taken) : Step capacity s t (.send message)
  | heard {answers : Answers P} {emissions : Emissions P} {message : SourceMessage P}
      (hidle : s.serving = none) (hqueue : s.queue = message :: t.queue)
      (htaken : t.taken = s.taken + 1)
      (hserving : t.serving =
        some ⟨.heard answers message, s.manager.provokes emissions (.heard answers message)⟩) :
      Step capacity s t (.serveMessage answers emissions)
  | ended {answers : Answers P} {emissions : Emissions P} {ending : PlaybackEnd}
      {rest : List PlaybackEnd} (hidle : s.serving = none) (hreports : s.reports = ending :: rest)
      (hqueue : t.queue = s.queue) (htaken : t.taken = s.taken)
      (hserving : t.serving =
        some ⟨.ended answers ending, s.manager.provokes emissions (.ended answers ending)⟩) :
      Step capacity s t (.serveReport answers emissions)
  | emitted {turn : Turn P} {message : SourceMessage P} {rest : List (SourceMessage P)}
      (hbefore : s.serving = some ⟨turn, message :: rest⟩) (hroom : s.queue.length < capacity)
      (hqueue : t.queue = s.queue ++ [message]) (htaken : t.taken = s.taken)
      (hserving : t.serving = some ⟨turn, rest⟩) : Step capacity s t .advance
  | finished {turn : Turn P} (hbefore : s.serving = some ⟨turn, []⟩) (hqueue : t.queue = s.queue)
      (htaken : t.taken = s.taken) (hserving : t.serving = none) : Step capacity s t .advance

theorem step_cases (capacity : ℕ) (s : Loop P) (action : LoopAction P) :
    Step capacity s (s.step capacity action) action := by
  cases action with
  | send message =>
    unfold step
    dsimp only
    split
    next hroom => exact .sent hroom rfl rfl rfl
    next hfull => exact .kept rfl rfl rfl (fun _ _ => Nat.le_of_not_lt hfull) nofun nofun nofun
  | report ending =>
    unfold step
    dsimp only
    split <;> exact .kept rfl rfl rfl nofun nofun nofun nofun
  | serveMessage answers emissions =>
    unfold step
    dsimp only
    split
    next message rest hserving hqueue => exact .heard hserving hqueue rfl rfl
    next hnot =>
      refine .kept rfl rfl rfl nofun nofun (fun _ _ _ => ?_) nofun
      by_contra hboth
      obtain ⟨hidle, hqueue⟩ := not_or.mp hboth
      obtain ⟨message, rest, hcons⟩ := exists_cons_of_ne_nil hqueue
      exact hnot message rest (not_not.mp hidle) hcons
  | serveReport answers emissions =>
    unfold step
    dsimp only
    split
    next ending rest hserving hreports => exact .ended hserving hreports rfl rfl rfl
    next hnot =>
      refine .kept rfl rfl rfl nofun nofun nofun fun _ _ _ => ?_
      by_contra hboth
      obtain ⟨hidle, hreports⟩ := not_or.mp hboth
      obtain ⟨ending, rest, hcons⟩ := exists_cons_of_ne_nil hreports
      exact hnot ending rest (not_not.mp hidle) hcons
  | advance =>
    unfold step
    dsimp only
    split
    next hidle => exact .kept rfl rfl rfl nofun (fun _ => .inl hidle) nofun nofun
    next turn hserving => exact .finished hserving rfl rfl rfl
    next turn message rest hserving =>
      split
      next hroom => exact .emitted hserving hroom rfl rfl rfl
      next hfull =>
        refine .kept rfl rfl rfl nofun (fun _ => .inr ⟨?_, Nat.le_of_not_lt hfull⟩) nofun nofun
        rw [pending_of_serving hserving]
        exact cons_ne_nil _ _

/-! ## Room for the turn under way -/

/-- The queue and what the turn under way still has to queue fit into the
channel. -/
def Fits (capacity : ℕ) (s : Loop P) : Prop := s.queue.length + s.pending.length ≤ capacity

/-- A turn has more to queue than there is room for. -/
def Overfull (capacity : ℕ) (s : Loop P) : Prop :=
  s.pending ≠ [] ∧ capacity < s.queue.length + s.pending.length

theorem fits_new (capacity : ℕ) (display osd : Bool) (config : SessionConfig) :
    Fits capacity (new display osd config : Loop P) := Nat.zero_le _

theorem Fits.not_stuck (h : s.Fits capacity) : ¬ s.Stuck capacity := by
  rintro ⟨hpending, hfull⟩
  have hpos := length_pos_iff.mpr hpending
  unfold Fits at h
  omega

theorem pending_congr {t : Loop P} (h : t.serving = s.serving) : t.pending = s.pending := by
  rw [pending, pending, h]

/-- **One step** for which there is room keeps room for the turn under way. -/
theorem Fits.step (h : s.Fits capacity) {action : LoopAction P} (hroomy : s.Roomy capacity action) :
    (s.step capacity action).Fits capacity := by
  unfold Fits at h ⊢
  generalize hafter : s.step capacity action = t
  have hcases := step_cases capacity s action
  rw [hafter] at hcases
  cases hcases with
  | kept hserving hqueue htaken hsend hadvance hserve hreport => rwa [hqueue, pending_congr hserving]
  | sent hroom hserving hqueue htaken =>
    rw [hqueue, pending_congr hserving, length_append, length_singleton]
    by_cases hpending : s.pending = []
    · rw [hpending, length_nil]
      omega
    · have hless := hroomy hpending
      omega
  | heard hidle hqueue htaken hserving =>
    rw [pending_of_serving hserving]
    exact hroomy hidle _ _ hqueue
  | ended hidle hreports hqueue htaken hserving =>
    rw [hqueue, pending_of_serving hserving]
    exact hroomy hidle _ _ hreports
  | emitted hbefore hroom hqueue htaken hserving =>
    rw [pending_of_serving hbefore] at h
    rw [hqueue, pending_of_serving hserving, length_append, length_singleton]
    simp only [length_cons] at h
    omega
  | finished hbefore hqueue htaken hserving =>
    rw [hqueue, pending_of_idle hserving]
    exact Nat.le_trans (Nat.add_le_add_left (Nat.zero_le _) _) h

/-- A step for which there is no room takes the room of a turn. -/
theorem Fits.overfull (h : s.Fits capacity) {action : LoopAction P}
    (hnot : ¬ s.Roomy capacity action) : (s.step capacity action).Overfull capacity := by
  unfold Fits at h
  generalize hafter : s.step capacity action = t
  have hcases := step_cases capacity s action
  rw [hafter] at hcases
  -- a turn that begins with too much to queue has something to queue
  have hbegun : ∀ turn emits, t.serving = some ⟨turn, emits⟩ → t.queue.length ≤ capacity →
      capacity < t.queue.length + emits.length → t.Overfull capacity := by
    intro turn emits hserving hle hlt
    rw [Overfull, pending_of_serving hserving]
    refine ⟨fun hnil => ?_, hlt⟩
    rw [hnil, length_nil] at hlt
    omega
  cases action with
  | send message =>
    have hboth : s.pending ≠ [] ∧ capacity ≤ s.queue.length + s.pending.length := by
      simpa [Roomy] using hnot
    have hpos := length_pos_iff.mpr hboth.1
    cases hcases with
    | kept hserving hqueue htaken hsend hadvance hserve hreport =>
      have hfull := hsend message rfl
      omega
    | sent hroom hserving hqueue htaken =>
      rw [Overfull, pending_congr hserving, hqueue, length_append, length_singleton]
      exact ⟨hboth.1, by omega⟩
  | serveMessage answers emissions =>
    simp only [Roomy, not_forall, Nat.not_le] at hnot
    obtain ⟨hidle, message, rest, hqueue, hlt⟩ := hnot
    cases hcases with
    | kept hserving hkept htaken hsend hadvance hserve hreport =>
      rcases hserve answers emissions rfl with hbusy | hempty
      · exact absurd hidle hbusy
      · rw [hqueue] at hempty
        cases hempty
    | heard _ htake htaken hserving =>
      rw [hqueue] at htake
      obtain ⟨rfl, rfl⟩ := cons.inj htake
      rw [hqueue, length_cons] at h
      exact hbegun _ _ hserving (by omega) hlt
  | serveReport answers emissions =>
    simp only [Roomy, not_forall, Nat.not_le] at hnot
    obtain ⟨hidle, ending, rest, hreports, hlt⟩ := hnot
    cases hcases with
    | kept hserving hkept htaken hsend hadvance hserve hreport =>
      rcases hreport answers emissions rfl with hbusy | hempty
      · exact absurd hidle hbusy
      · rw [hreports] at hempty
        cases hempty
    | ended _ htake hqueue htaken hserving =>
      rw [hreports] at htake
      obtain ⟨rfl, rfl⟩ := cons.inj htake
      rw [← hqueue] at hlt h
      exact hbegun _ _ hserving (by omega) hlt
  | report ending | advance => exact absurd trivial hnot

/-- Room that has been taken from a turn does not come back. -/
theorem Overfull.step (h : s.Overfull capacity) (action : LoopAction P) :
    (s.step capacity action).Overfull capacity := by
  obtain ⟨hpending, hlt⟩ := h
  generalize hafter : s.step capacity action = t
  have hcases := step_cases capacity s action
  rw [hafter] at hcases
  cases hcases with
  | kept hserving hqueue htaken hsend hadvance hserve hreport =>
    rw [Overfull, pending_congr hserving, hqueue]
    exact ⟨hpending, hlt⟩
  | sent hroom hserving hqueue htaken =>
    rw [Overfull, pending_congr hserving, hqueue, length_append]
    exact ⟨hpending, by omega⟩
  | heard hidle hqueue htaken hserving | ended hidle hreports hqueue htaken hserving =>
    exact absurd (pending_of_idle hidle) hpending
  | emitted hbefore hroom hqueue htaken hserving =>
    rw [pending_of_serving hbefore, length_cons] at hlt
    rw [Overfull, pending_of_serving hserving, hqueue, length_append, length_singleton]
    refine ⟨fun hnil => ?_, by omega⟩
    rw [hnil, length_nil] at hlt
    omega
  | finished hbefore hqueue htaken hserving => exact absurd (pending_of_serving hbefore) hpending

/-- A turn whose room has been taken gets stuck, as soon as it goes on. -/
theorem Overfull.stuck (h : s.Overfull capacity) :
    ∃ k, (s.run capacity (List.replicate k .advance)).Stuck capacity := by
  generalize hlength : s.pending.length = length
  induction length generalizing s with
  | zero => exact absurd (length_eq_zero_iff.mp hlength) h.1
  | succ length ih =>
    by_cases hfull : capacity ≤ s.queue.length
    · exact ⟨0, h.1, hfull⟩
    · have hnext := h.step .advance
      generalize hafter : s.step capacity .advance = t at hnext
      have hcases := step_cases capacity s .advance
      rw [hafter] at hcases
      have hshorter : t.pending.length = length := by
        cases hcases with
        | kept hserving hqueue htaken hsend hadvance hserve hreport =>
          rcases hadvance rfl with hidle | hstuck
          · exact absurd (pending_of_idle hidle) h.1
          · exact absurd hstuck.2 hfull
        | emitted hbefore hroom hqueue htaken hserving =>
          rw [pending_of_serving hbefore, length_cons] at hlength
          rw [pending_of_serving hserving]
          omega
        | finished hbefore hqueue htaken hserving =>
          exact absurd (pending_of_serving hbefore) h.1
      obtain ⟨k, hk⟩ := ih hnext hshorter
      refine ⟨k + 1, ?_⟩
      rw [replicate_succ, run, foldl_cons, hafter]
      exact hk

/-! ## Runs -/

theorem fits_run (capacity : ℕ) (display osd : Bool) (config : SessionConfig)
    (actions : List (LoopAction P))
    (h : Along (step capacity) (Roomy capacity) actions (new display osd config)) :
    ((new display osd config).run capacity actions).Fits capacity := by
  induction actions using List.reverseRecOn with
  | nil => exact fits_new capacity display osd config
  | append_singleton actions action ih =>
    obtain ⟨hbefore, hlast, -⟩ := along_append.mp h
    rw [run, foldl_concat]
    exact (ih hbefore).step hlast

/-- **No turn ever gets stuck**, however the manager goes on from any point of a
run, exactly when every step of the run leaves the turn under way its room. -/
theorem never_waits_iff (capacity : ℕ) (display osd : Bool) (config : SessionConfig)
    (actions : List (LoopAction P)) : (∀ before after, actions = before ++ after → ∀ k,
      ¬ ((new display osd config).run capacity (before ++ List.replicate k .advance)).Stuck
        capacity) ↔
      Along (step capacity) (Roomy capacity) actions (new display osd config) := by
  constructor
  · intro h
    induction actions using List.reverseRecOn with
    | nil => trivial
    | append_singleton actions action ih =>
      have hbefore : Along (step capacity) (Roomy capacity) actions (new display osd config) := by
        apply ih
        rintro before after rfl k
        exact h before (after ++ [action]) (append_assoc ..) k
      refine along_append.mpr ⟨hbefore, ?_, trivial⟩
      by_contra hnot
      have hover := (fits_run capacity display osd config actions hbefore).overfull hnot
      obtain ⟨k, hk⟩ := hover.stuck
      refine h (actions ++ [action]) [] (append_nil _).symm k ?_
      rw [run, foldl_append, foldl_concat]
      exact hk
  · rintro h before after rfl k
    have hbefore := (along_append.mp h).1
    have hadvancing : ∀ s : Loop P, Along (step capacity) (Roomy capacity)
        (List.replicate k .advance) s := by
      induction k with
      | zero => exact fun _ => trivial
      | succ k ih => exact fun s => ⟨trivial, ih _⟩
    exact (fits_run capacity display osd config _
      (along_append.mpr ⟨hbefore, hadvancing _⟩)).not_stuck

/-! ## Messages are heard -/

/-- `t` has taken some messages from the head of the queue of `s`, and kept the
others in their order. -/
structure Later (s t : Loop P) : Prop where
  taken : s.taken ≤ t.taken
  queue : ∀ i message, s.queue[t.taken - s.taken + i]? = some message →
    t.queue[i]? = some message

theorem Later.refl (s : Loop P) : Later s s :=
  ⟨Nat.le_refl _, fun i message h => by rwa [Nat.sub_self, Nat.zero_add] at h⟩

theorem Later.trans {s t u : Loop P} (hst : Later s t) (htu : Later t u) : Later s u where
  taken := Nat.le_trans hst.taken htu.taken
  queue := fun i message h => by
    apply htu.queue
    apply hst.queue
    have hfirst := hst.taken
    have hsecond := htu.taken
    have hsum : t.taken - s.taken + (u.taken - t.taken + i) = u.taken - s.taken + i := by omega
    rwa [hsum]

theorem later_step (capacity : ℕ) (s : Loop P) (action : LoopAction P) :
    Later s (s.step capacity action) := by
  generalize hafter : s.step capacity action = t
  have hcases := step_cases capacity s action
  rw [hafter] at hcases
  have hkept : ∀ queued, t.queue = s.queue ++ queued → t.taken = s.taken → Later s t := by
    intro queued hqueue htaken
    refine ⟨Nat.le_of_eq htaken.symm, fun i message h => ?_⟩
    rw [htaken, Nat.sub_self, Nat.zero_add] at h
    rw [hqueue, getElem?_append_left (List.getElem?_eq_some_iff.mp h).1]
    exact h
  cases hcases with
  | kept hserving hqueue htaken hsend hadvance hserve hreport =>
    exact hkept [] (hqueue.trans (append_nil _).symm) htaken
  | sent hroom hserving hqueue htaken => exact hkept _ hqueue htaken
  | heard hidle hqueue htaken hserving =>
    refine ⟨by omega, fun i message h => ?_⟩
    have hone : t.taken - s.taken + i = i + 1 := by omega
    rw [hone, hqueue, getElem?_cons_succ] at h
    exact h
  | ended hidle hreports hqueue htaken hserving =>
    exact hkept [] (hqueue.trans (append_nil _).symm) htaken
  | emitted hbefore hroom hqueue htaken hserving => exact hkept _ hqueue htaken
  | finished hbefore hqueue htaken hserving =>
    exact hkept [] (hqueue.trans (append_nil _).symm) htaken

/-- A turn that can go on goes on, and the manager hears sources as well as
reports. -/
structure Fair (states : ℕ → Loop P) (schedule : ℕ → LoopAction P) : Prop where
  works : ∀ n, (states n).serving ≠ none → ∃ m, n ≤ m ∧ schedule m = .advance
  hears : (∀ n, ∃ m, n ≤ m ∧ (states m).serving = none ∧ (states m).queue ≠ []) →
    ∀ n, ∃ m, n ≤ m ∧ (states m).serving = none ∧ (states m).queue ≠ [] ∧
      ∃ answers emissions, schedule m = .serveMessage answers emissions

section Schedules

variable {start : Loop P} {schedule : ℕ → LoopAction P}

theorem later_after {m n : ℕ} (hmn : m ≤ n) :
    Later (after (step capacity) start schedule m) (after (step capacity) start schedule n) :=
  after_mono .refl (fun _ _ _ => .trans) (fun _ => later_step capacity _ _) hmn

theorem fits_after (hstart : start.Fits capacity)
    (hroomy : ∀ n, (after (step capacity) start schedule n).Roomy capacity (schedule n)) (n : ℕ) :
    (after (step capacity) start schedule n).Fits capacity := by
  induction n with
  | zero => exact hstart
  | succ n ih => exact ih.step (hroomy n)

/-- The turn has ended or is one event further, and no other message has been
taken. -/
def Further (s t : Loop P) (turn : Turn P) (emits : List (SourceMessage P)) : Prop :=
  t.taken = s.taken ∧ (t.serving = none ∨
    ∃ message rest, emits = message :: rest ∧ t.serving = some ⟨turn, rest⟩)

theorem goes_on (hfits : ∀ n, (after (step capacity) start schedule n).Fits capacity)
    {turn : Turn P} {emits : List (SourceMessage P)} {n : ℕ}
    (hserving : (after (step capacity) start schedule n).serving = some ⟨turn, emits⟩) {wait : ℕ}
    (hwait : schedule (n + wait) = .advance) :
    ∃ m, n ≤ m ∧ Further (after (step capacity) start schedule n)
      (after (step capacity) start schedule m) turn emits := by
  induction wait generalizing n with
  | zero =>
    have hcases := step_cases capacity (after (step capacity) start schedule n) (schedule n)
    rw [Nat.add_zero] at hwait
    refine ⟨n + 1, Nat.le_succ n, ?_⟩
    rw [after]
    rw [hwait] at hcases ⊢
    cases hcases with
    | kept hkept hqueue htaken hsend hadvance hserve hreport =>
      rcases hadvance rfl with hidle | hstuck
      · rw [hidle] at hserving
        cases hserving
      · exact absurd hstuck (hfits n).not_stuck
    | emitted hbefore hroom hqueue htaken hafter =>
      rw [hserving] at hbefore
      cases hbefore
      exact ⟨htaken, .inr ⟨_, _, rfl, hafter⟩⟩
    | finished hbefore hqueue htaken hafter => exact ⟨htaken, .inl hafter⟩
  | succ wait ih =>
    have hcases := step_cases capacity (after (step capacity) start schedule n) (schedule n)
    rw [show n + (wait + 1) = n + 1 + wait by omega] at hwait
    have hbusy : (after (step capacity) start schedule n).serving ≠ none := by
      rw [hserving]
      exact Option.some_ne_none _
    generalize hscheduled : schedule n = action at hcases
    have hnext : (after (step capacity) start schedule (n + 1)) =
        (after (step capacity) start schedule n).step capacity action := by
      rw [after, hscheduled]
    rw [← hnext] at hcases
    have hlater : (after (step capacity) start schedule (n + 1)).serving =
          (after (step capacity) start schedule n).serving →
        (after (step capacity) start schedule (n + 1)).taken =
          (after (step capacity) start schedule n).taken →
        ∃ m, n ≤ m ∧ Further (after (step capacity) start schedule n)
          (after (step capacity) start schedule m) turn emits := by
      intro hsame htaken
      obtain ⟨m, hm, htakenm, hdone⟩ := ih (hsame.trans hserving) hwait
      exact ⟨m, Nat.le_of_succ_le hm, htakenm.trans htaken, hdone⟩
    cases hcases with
    | kept hkept hqueue htaken hsend hadvance hserve hreport | sent hroom hkept hqueue htaken =>
      exact hlater hkept htaken
    | heard hidle hqueue htaken hafter | ended hidle hreports hqueue htaken hafter =>
      exact absurd hidle hbusy
    | emitted hbefore hroom hqueue htaken hafter =>
      rw [hserving] at hbefore
      cases hbefore
      exact ⟨n + 1, Nat.le_succ n, htaken, .inr ⟨_, _, rfl, hafter⟩⟩
    | finished hbefore hqueue htaken hafter =>
      exact ⟨n + 1, Nat.le_succ n, htaken, .inl hafter⟩

/-- Every turn ends, and no other message has been taken then. -/
theorem idle_again (hfits : ∀ n, (after (step capacity) start schedule n).Fits capacity)
    (hfair : Fair (after (step capacity) start schedule) schedule) (n : ℕ) :
    ∃ m, n ≤ m ∧ (after (step capacity) start schedule m).serving = none ∧
      (after (step capacity) start schedule m).taken =
        (after (step capacity) start schedule n).taken := by
  cases hserving : (after (step capacity) start schedule n).serving with
  | none => exact ⟨n, Nat.le_refl n, hserving, rfl⟩
  | some serving =>
    obtain ⟨turn, emits⟩ := serving
    induction emits generalizing n with
    | nil =>
      obtain ⟨k, hk, hadvance⟩ := hfair.works n (by rw [hserving]; exact Option.some_ne_none _)
      obtain ⟨wait, rfl⟩ := Nat.exists_eq_add_of_le hk
      obtain ⟨m, hm, htaken, hidle | ⟨_, _, hnil, -⟩⟩ := goes_on hfits hserving hadvance
      · exact ⟨m, hm, hidle, htaken⟩
      · cases hnil
    | cons message emits ih =>
      obtain ⟨k, hk, hadvance⟩ := hfair.works n (by rw [hserving]; exact Option.some_ne_none _)
      obtain ⟨wait, rfl⟩ := Nat.exists_eq_add_of_le hk
      obtain ⟨m, hm, htaken, hidle | ⟨_, _, hcons, hrest⟩⟩ := goes_on hfits hserving hadvance
      · exact ⟨m, hm, hidle, htaken⟩
      · cases hcons
        obtain ⟨l, hl, hidle, hsame⟩ := ih m hrest
        exact ⟨l, Nat.le_trans hm hl, hidle, hsame.trans htaken⟩

/-- While a message waits, another one is taken some time. -/
theorem taken_again (hfits : ∀ n, (after (step capacity) start schedule n).Fits capacity)
    (hfair : Fair (after (step capacity) start schedule) schedule) {n : ℕ}
    (hqueue : (after (step capacity) start schedule n).queue ≠ []) :
    ∃ m, n ≤ m ∧ (after (step capacity) start schedule m).taken =
      (after (step capacity) start schedule n).taken + 1 := by
  by_contra hnever
  -- then the queue never gets empty, and the manager takes its head after all
  have hsame : ∀ m, n ≤ m → (after (step capacity) start schedule m).taken =
      (after (step capacity) start schedule n).taken := by
    intro m hm
    induction hm with
    | refl => rfl
    | @step m hm ih =>
      by_contra hne
      refine hnever ⟨m + 1, Nat.le_succ_of_le hm, ?_⟩
      have hcases := step_cases capacity (after (step capacity) start schedule m) (schedule m)
      rw [after] at hne ⊢
      generalize (after (step capacity) start schedule m).step capacity (schedule m) = t
        at hcases hne ⊢
      generalize schedule m = action at hcases
      cases hcases with
      | heard hidle hhead htaken hserving => rw [htaken, ih]
      | kept hserving hkept htaken hsend hadvance hserve hreport =>
        exact absurd (htaken.trans ih) hne
      | sent hroom hserving hkept htaken | ended hidle hreports hkept htaken hserving
      | emitted hbefore hroom hkept htaken hserving | finished hbefore hkept htaken hserving =>
        exact absurd (htaken.trans ih) hne
  have hwaiting : ∀ m, n ≤ m → (after (step capacity) start schedule m).queue ≠ [] := by
    intro m hm hnil
    obtain ⟨message, rest, hcons⟩ := exists_cons_of_ne_nil hqueue
    have hhead := (@later_after P capacity start schedule n m hm).queue 0 message
    rw [hsame m hm, Nat.sub_self, Nat.zero_add, hcons, hnil] at hhead
    cases hhead rfl
  obtain ⟨m, hm, hidle, hne, answers, emissions, hserve⟩ := hfair.hears (fun k => by
    obtain ⟨m, hm, hidle, -⟩ := idle_again hfits hfair (max k n)
    exact ⟨m, by omega, hidle, hwaiting m (by omega)⟩) n
  have hcases := step_cases capacity (after (step capacity) start schedule m) (schedule m)
  have hafter := hsame (m + 1) (Nat.le_succ_of_le hm)
  rw [after] at hafter
  rw [hserve] at hcases hafter
  cases hcases with
  | heard _ hhead htaken hserving =>
    rw [htaken, hsame m hm] at hafter
    omega
  | kept hserving hkept htaken hsend hadvance hserve' hreport =>
    rcases hserve' answers emissions rfl with hbusy | hempty
    · exact hbusy hidle
    · exact hne hempty

/-- **Every message is heard**: it gets to the head of the queue, and the
manager is free to take it. -/
theorem eventually_heard (hfits : ∀ n, (after (step capacity) start schedule n).Fits capacity)
    (hfair : Fair (after (step capacity) start schedule) schedule) (n i : ℕ)
    {message : SourceMessage P}
    (hmessage : (after (step capacity) start schedule n).queue[i]? = some message) :
    ∃ m, n ≤ m ∧ (after (step capacity) start schedule m).serving = none ∧
      (after (step capacity) start schedule m).queue.head? = some message ∧
      (after (step capacity) start schedule m).taken =
        (after (step capacity) start schedule n).taken + i := by
  induction i generalizing n with
  | zero =>
    obtain ⟨m, hm, hidle, htaken⟩ := idle_again hfits hfair n
    refine ⟨m, hm, hidle, ?_, htaken⟩
    rw [head?_eq_getElem?]
    apply (@later_after P capacity start schedule n m hm).queue
    rwa [htaken, Nat.sub_self]
  | succ i ih =>
    have hqueue : (after (step capacity) start schedule n).queue ≠ [] := by
      rintro hnil
      rw [hnil] at hmessage
      cases hmessage
    obtain ⟨k, hk, htaken⟩ := taken_again hfits hfair hqueue
    have hone : (after (step capacity) start schedule k).queue[i]? = some message := by
      apply (@later_after P capacity start schedule n k hk).queue
      rwa [htaken, Nat.add_sub_cancel_left, Nat.add_comm]
    obtain ⟨m, hm, hidle, hhead, hsame⟩ := ih k hone
    exact ⟨m, Nat.le_trans hk hm, hidle, hhead, by omega⟩

end Schedules

/-- **The manager never waits on its own queue** exactly in the runs that leave
every turn its room, and along a schedule of such steps it hears every message.
-/
theorem never_waits_on_itself (capacity : ℕ) (display osd : Bool) (config : SessionConfig) :
    (∀ actions : List (LoopAction P),
      (∀ before after, actions = before ++ after → ∀ k,
        ¬ ((new display osd config).run capacity (before ++ List.replicate k .advance)).Stuck
          capacity) ↔
        Along (step capacity) (Roomy capacity) actions (new display osd config)) ∧
    ∀ schedule : ℕ → LoopAction P,
      (∀ n, (after (step capacity) (new display osd config) schedule n).Roomy capacity
        (schedule n)) →
      Fair (after (step capacity) (new display osd config) schedule) schedule →
      ∀ n i message,
        (after (step capacity) (new display osd config) schedule n).queue[i]? = some message →
        ∃ m, n ≤ m ∧ (after (step capacity) (new display osd config) schedule m).serving = none ∧
          (after (step capacity) (new display osd config) schedule m).queue.head? =
            some message ∧
          (after (step capacity) (new display osd config) schedule m).taken =
            (after (step capacity) (new display osd config) schedule n).taken + i :=
  ⟨never_waits_iff capacity display osd config, fun _ hroomy hfair n i _ hmessage =>
    eventually_heard (fits_after (fits_new capacity display osd config) hroomy) hfair n i hmessage⟩

end Loop

end Castaway.Core
