import Castaway.Core.Ownership

/-!
# End reports and the session they are about

`run` takes turns from two queues: what the sources say, and the pipeline's
reports that an item has ended.  A report carries neither a source nor an item,
so the manager attributes it to whoever is active when it is taken.  `System` is
the manager with both queues, served in any order; it numbers the sessions, so
that a queued report can remember which one it is about.

## Strategy

A report that waits while another session begins is `overtaken`, and the manager
would take it for the end of that other session.  **The headline result**
`reports_end_their_own` says that this is the only way: every report ends only
its own session exactly when each report that is overtaken finds nothing active.
-/

namespace Castaway.Core

variable {P : Payloads}

/-! ## The two queues -/

/-- A report in its queue, about the session `about`. -/
structure Report where
  ending : PlaybackEnd
  about : ℕ
  /-- Another session has begun since the report was queued. -/
  overtaken : Bool
deriving DecidableEq, Repr

def Report.overtake (report : Report) : Report := { report with overtaken := true }

/-- The manager, the queues it serves, and how many sessions have begun. -/
structure System (P : Payloads) where
  manager : SessionManager P
  sessions : ℕ
  messages : List (SourceMessage P)
  reports : List Report

/-- What can happen: someone queues something, or the manager serves a queue. -/
inductive Action (P : Payloads)
  | send (message : SourceMessage P)
  | report (ending : PlaybackEnd)
  | serveMessage (answers : Answers P)
  | serveReport (answers : Answers P)

namespace System

def new (display osd : Bool) (config : SessionConfig) : System P where
  manager := .new display osd config
  sessions := 0
  messages := []
  reports := []

def session (s : System P) : Option ℕ := s.manager.active.map fun _ => s.sessions

/-- The manager has handled a message and is now `manager`.  A session has begun
if another source is active than before. -/
def handled (s : System P) (manager : SessionManager P) (messages : List (SourceMessage P)) :
    System P :=
  if manager.active ≠ s.manager.active ∧ manager.active.isSome then
    { manager, messages, sessions := s.sessions + 1, reports := s.reports.map Report.overtake }
  else { s with manager, messages }

def step (s : System P) : Action P → System P
  | .send message => { s with messages := s.messages ++ [message] }
  | .report ending =>
    -- The pipeline plays the item of the active session, and reports its end.
    if s.manager.active.isSome then
      { s with reports := s.reports ++ [⟨ending, s.sessions, false⟩] }
    else s
  | .serveMessage answers =>
    match s.messages with
    | [] => s
    | message :: rest => s.handled (s.manager.handle answers message).1 rest
  | .serveReport answers =>
    match s.reports with
    | [] => s
    | report :: rest =>
      { s with manager := s.manager.mediaEnded answers report.ending, reports := rest }

def run (s : System P) (actions : List (Action P)) : System P := actions.foldl step s

end System

namespace SessionManager

variable (m : SessionManager P) (answers : Answers P)

theorem mediaEnded_idle (ending : PlaybackEnd) (hidle : m.active = none) :
    m.mediaEnded answers ending = m := by
  simp only [mediaEnded, hidle]

/-- A report that finds a source active ends its session. -/
theorem mediaEnded_active (ending : PlaybackEnd) {source : SourceId}
    (hactive : m.active = some source) : (m.mediaEnded answers ending).active = none := by
  simp only [mediaEnded, hactive]
  cases m.remote with
  | none =>
    obtain ⟨calls, hend⟩ := m.endSession_eq answers
    simp only [handle, hactive, if_true, hend]
  | some remote =>
    obtain ⟨calls, hend⟩ := (m.note (.mediaEnded remote ending)).endSession_eq answers
    simp only [handle, reportEnd, note, hactive, if_true] at hend ⊢
    rw [hend]

end SessionManager

namespace System

/-! ## What the overtaken mark means -/

/-- Every queued report is about a session that has begun, and is overtaken
exactly if it is not the last one. -/
def Marked (s : System P) : Prop :=
  ∀ report ∈ s.reports, report.about ≤ s.sessions ∧
    (report.overtaken = true ↔ report.about < s.sessions)

theorem marked_new (display osd : Bool) (config : SessionConfig) :
    (new display osd config : System P).Marked := nofun

theorem Marked.handled {s : System P} (h : s.Marked) (manager : SessionManager P)
    (messages : List (SourceMessage P)) : (s.handled manager messages).Marked := by
  unfold System.handled
  split
  · intro report hreport
    obtain ⟨queued, hqueued, rfl⟩ := List.mem_map.mp hreport
    have hle := (h queued hqueued).1
    exact ⟨Nat.le_succ_of_le hle, fun _ => Nat.lt_succ_of_le hle, fun _ => rfl⟩
  · exact h

theorem Marked.step {s : System P} (h : s.Marked) (action : Action P) : (s.step action).Marked := by
  cases action with
  | send message => exact h
  | report ending =>
    unfold System.step
    dsimp only
    split
    · intro report hreport
      rcases List.mem_append.mp hreport with hqueued | hnew
      · exact h report hqueued
      · obtain rfl := List.mem_singleton.mp hnew
        exact ⟨Nat.le_refl _, nofun, fun hlt => absurd hlt (Nat.lt_irrefl _)⟩
    · exact h
  | serveMessage answers =>
    unfold System.step
    dsimp only
    split
    · exact h
    · exact h.handled _ _
  | serveReport answers =>
    unfold System.step
    dsimp only
    split
    next => exact h
    next hreports =>
      intro report hreport
      exact h report (hreports ▸ List.mem_cons_of_mem _ hreport)

theorem marked_run (display osd : Bool) (config : SessionConfig) (actions : List (Action P)) :
    ((new display osd config).run actions).Marked := by
  induction actions using List.reverseRecOn with
  | nil => exact marked_new display osd config
  | append_singleton actions action ih =>
    rw [run, List.foldl_concat]
    exact ih.step action

/-! ## Ending only one's own session -/

def EndsPlayback : Call P → Prop
  | .pipeline .stop | .mediaEnded .. => True
  | _ => False

/-- If the next report is not about the active session, taking it neither clears
the active source nor stops the pipeline nor reports to a control surface. -/
def EndsOnlyItsOwn (s : System P) (answers : Answers P) : Prop :=
  ∀ report rest, s.reports = report :: rest → s.session ≠ some report.about →
    let after := s.manager.mediaEnded answers report.ending
    after.active = s.manager.active ∧
      ∃ calls, after.calls = s.manager.calls ++ calls ∧ ∀ call ∈ calls, ¬ EndsPlayback call

/-- The next report has not been overtaken, or finds nothing active. -/
def InTime (s : System P) : Prop :=
  ∀ report rest, s.reports = report :: rest →
    s.manager.active = none ∨ report.overtaken = false

theorem endsOnlyItsOwn_iff {s : System P} (hmarked : s.Marked) (answers : Answers P) :
    s.EndsOnlyItsOwn answers ↔ s.InTime := by
  constructor
  · intro hends report rest hreports
    by_contra hlate
    obtain ⟨hactive, hovertaken⟩ := not_or.mp hlate
    obtain ⟨source, hsource⟩ := Option.ne_none_iff_exists'.mp hactive
    have hmark := hmarked report (hreports ▸ List.mem_cons_self)
    have habout : report.about < s.sessions :=
      hmark.2.mp ((Bool.not_eq_false _).mp hovertaken)
    have hother : s.session ≠ some report.about := by
      rw [session, hsource, Option.map_some]
      exact fun h => absurd (Option.some.inj h) (Nat.ne_of_gt habout)
    have hkept := (hends report rest hreports hother).1
    rw [s.manager.mediaEnded_active answers report.ending hsource] at hkept
    exact hactive hkept.symm
  · intro hintime report rest hreports hother
    rcases hintime report rest hreports with hidle | hovertaken
    · rw [s.manager.mediaEnded_idle answers report.ending hidle]
      exact ⟨rfl, [], (List.append_nil _).symm, by simp⟩
    · -- A report that was not overtaken is about the active session, if there is one.
      have hmark := hmarked report (hreports ▸ List.mem_cons_self)
      have habout : report.about = s.sessions := by
        have hnot : ¬ report.about < s.sessions := fun hlt => by
          cases hovertaken.symm.trans (hmark.2.mpr hlt)
        omega
      cases hactive : s.manager.active with
      | none =>
        rw [s.manager.mediaEnded_idle answers report.ending hactive]
        exact ⟨hactive, [], (List.append_nil _).symm, by simp⟩
      | some source =>
        refine absurd ?_ hother
        rw [session, hactive, Option.map_some, habout]

/-- **Reports end only their own sessions** in a run exactly if each report it
serves is served before another session begins, or when nothing is active. -/
theorem reports_end_their_own (display osd : Bool) (config : SessionConfig)
    (actions : List (Action P)) :
    (∀ before answers after, actions = before ++ .serveReport answers :: after →
      ((new display osd config).run before).EndsOnlyItsOwn answers) ↔
    ∀ before answers after, actions = before ++ .serveReport answers :: after →
      ((new display osd config).run before).InTime := by
  refine forall_congr' fun before => forall_congr' fun answers => forall_congr' fun after =>
    imp_congr_right fun _ => ?_
  exact endsOnlyItsOwn_iff (marked_run display osd config before) answers

/-! ## A report that comes too late -/

def bare : Payloads where
  MediaRequest := Unit
  MediaUri := Unit
  FrameSource := Unit
  AudioFormat := Unit
  Bytes := Unit
  DeclaredLatency := Unit
  NowPlaying := Unit
  QueueItem := Unit
  Volume := Unit
  RemoteControl := Unit
  TouchSurface := Unit

/-- Everything outside does as it is asked. -/
def willing : Answers bare where
  pipeline := fun _ => .ok ()
  powerOn := .ok ()
  selectInput := fun _ => .ok ()
  capabilities := fun _ => .NONE
  issue := fun _ _ => .ok ()
  mediaEnded := fun _ _ => .ok ()

/-- The item of a first source ends while a second source takes the screen. -/
def preemptedWhileEnding : List (Action bare) :=
  [.send ⟨⟨.dlna, "tv"⟩, .play () none⟩,
    .serveMessage willing,
    .send ⟨⟨.cast, "phone"⟩, .play () none⟩,
    .report .finished,
    .serveMessage willing]

/-- The report of the first source's item ends the session of the second. -/
theorem late_report_ends_other_session : ¬ ∀ before answers after,
      preemptedWhileEnding ++ [.serveReport willing] = before ++ .serveReport answers :: after →
        ((new false false .default).run before).EndsOnlyItsOwn answers := by
  intro h
  have hends := h preemptedWhileEnding willing [] rfl ⟨.finished, 1, true⟩ [] rfl
    (fun hsession => by cases hsession)
  cases hends.1

end System

end Castaway.Core
