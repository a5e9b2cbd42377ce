import Castaway.Core.Session
import Castaway.Lib.Runs

/-!
# Who owns what the session manager holds

The manager holds three things on behalf of the active source: its remote
control surface, its touch surface and what is known about it.  `Holdings`
collects them, and `Holdings.hear` says what one event of the owner does to
them.

## Strategy

The proof has three layers.

* `handle_effect` says once what a message can do: keep the owner, and let the
  holdings hear the event if it is the owner's; hand the panel to the sender
  with nothing held; or leave the manager idle with nothing held.
* `Owned` says that the holdings are exactly what the owner's events since it
  last became active add up to, and `Owned.turn` that each turn keeps this.
* Whatever is present in such a sum was one of its events
  (`exists_controlSurface` and the lemmas beside it).

**The headline result** is `session_ownership`.
-/

namespace Castaway.Core

variable {P : Payloads}

/-! ## Holdings -/

@[ext] structure Holdings (P : Payloads) where
  remote : Option P.RemoteControl
  touch : Option P.TouchSurface
  description : SourceDescription

namespace Holdings

def nothing : Holdings P := ⟨none, none, .new⟩

def hear (held : Holdings P) : SessionEvent P → Holdings P
  | .controlSurface remote => { held with remote := some remote }
  | .touchSurface surface => { held with touch := some surface }
  | .touchSurfaceRevoked => { held with touch := none }
  | .sourceInfo info => { held with description := held.description.merged info }
  | _ => held

/-- What a sequence of events of the owner adds up to. -/
def hearAll (events : List (SessionEvent P)) : Holdings P :=
  events.foldl hear nothing

variable {events : List (SessionEvent P)}

theorem exists_controlSurface {remote : P.RemoteControl}
    (hremote : (hearAll events).remote = some remote) : .controlSurface remote ∈ events := by
  obtain ⟨event, hmem, rfl⟩ :=
    exists_source (fun held : Holdings P => held.remote = some remote)
      (fun event => event = .controlSurface remote) (by simp [nothing])
      (fun held event h => by cases event <;> simp_all [hear]) hremote
  exact hmem

theorem exists_touchSurface {surface : P.TouchSurface}
    (htouch : (hearAll events).touch = some surface) : .touchSurface surface ∈ events := by
  obtain ⟨event, hmem, rfl⟩ :=
    exists_source (fun held : Holdings P => held.touch = some surface)
      (fun event => event = .touchSurface surface) (by simp [nothing])
      (fun held event h => by cases event <;> simp_all [hear]) htouch
  exact hmem

/-- A field of the description comes from an update that had it.  `field` is
one of the three, which `merged` treats alike. -/
theorem exists_sourceInfo (field : SourceDescription → Option String) (hnew : field .new = none)
    (hmerged : ∀ self other, field (.merged self other) =
      if (field other).isSome then field other else field self)
    {text : String} (hfield : field (hearAll events).description = some text) :
    ∃ info, .sourceInfo info ∈ events ∧ field info = some text := by
  have hone (held : Holdings P) (event : SessionEvent P)
      (h : field (held.hear event).description = some text) :
      (∃ info, event = .sourceInfo info ∧ field info = some text) ∨
        field held.description = some text := by
    cases event with
    | sourceInfo info =>
      change field (held.description.merged info) = some text at h
      rw [hmerged] at h
      split at h
      · exact .inl ⟨info, rfl, h⟩
      · exact .inr h
    | _ => exact .inr h
  obtain ⟨event, hmem, info, rfl, hinfo⟩ :=
    exists_source (fun held : Holdings P => field held.description = some text)
      (fun event => ∃ info, event = .sourceInfo info ∧ field info = some text)
      (by simp [nothing, hnew]) hone hfield
  exact ⟨info, hmem, hinfo⟩

end Holdings

/-! ## What a message does -/

namespace SessionManager

def holdings (m : SessionManager P) : Holdings P := ⟨m.remote, m.touch, m.description⟩

/-- The five pieces of state the ownership of the panel is about. -/
structure SameSession (m m' : SessionManager P) : Prop where
  active : m'.active = m.active
  casting : m'.casting = m.casting
  holdings : m'.holdings = m.holdings

theorem SameSession.refl (m : SessionManager P) : SameSession m m := ⟨rfl, rfl, rfl⟩

theorem SameSession.trans {m₁ m₂ m₃ : SessionManager P} (h₁₂ : SameSession m₁ m₂)
    (h₂₃ : SameSession m₂ m₃) : SameSession m₁ m₃ :=
  ⟨h₂₃.active.trans h₁₂.active, h₂₃.casting.trans h₁₂.casting, h₂₃.holdings.trans h₁₂.holdings⟩

section

variable (m : SessionManager P)

theorem sameSession_note (call : Call P) : SameSession m (m.note call) :=
  ⟨rfl, rfl, rfl⟩

theorem sameSession_showOsd (command : OsdCommand) :
    SameSession m (m.showOsd command) := by
  unfold showOsd
  split
  · exact sameSession_note m _
  · exact .refl m

theorem setTouch_eq (surface : Option P.TouchSurface) :
    ∃ calls, m.setTouch surface = { m with touch := surface, calls := calls } := by
  unfold setTouch
  split
  · exact ⟨m.calls, rfl⟩
  · exact ⟨_, rfl⟩

theorem preempt_eq (answers : Answers P) : ∃ calls, m.preempt answers =
      { m with remote := none, touch := none, description := .new, calls := calls } := by
  cases hremote : m.remote with
  | none =>
    obtain ⟨calls, h⟩ := setTouch_eq { m.note (.pipeline .stop) with remote := none } none
    exact ⟨calls, by simp only [preempt, hremote, callPipeline, h]; rfl⟩
  | some remote =>
    obtain ⟨calls, h⟩ := setTouch_eq
      { (m.note (.issue remote .pause)).note (.pipeline .stop) with remote := none } none
    exact ⟨calls, by simp only [preempt, hremote, issue, callPipeline, h]; rfl⟩

theorem activate_eq (source : SourceId) : ∃ calls, m.activate source =
      { m with active := some source, casting := true, calls := calls } := by
  unfold activate showOsd
  split
  · exact ⟨_, rfl⟩
  · exact ⟨m.calls, rfl⟩

end

/-- What a message of `source` can do to the session: nothing, when `source` is
not active; let the holdings hear it, when it is; hand `source` the panel; or
leave the manager idle. -/
inductive Effect (m : SessionManager P) (source : SourceId) (event : SessionEvent P)
    (m' : SessionManager P) : Prop
  | kept (hother : m.active ≠ some source) (hsame : SameSession m m')
  | heard (howner : m.active = some source) (hactive : m'.active = m.active)
      (hcasting : m'.casting = m.casting) (hholdings : m'.holdings = m.holdings.hear event)
  | began (hother : m.active ≠ some source) (hactive : m'.active = some source)
      (hcasting : m'.casting = true)
      (hholdings : m'.holdings = if m.active.isSome then .nothing else m.holdings)
  | idle (hactive : m'.active = none) (hcasting : m'.casting = false)
      (hholdings : m'.holdings = .nothing)

/-- A session begins for a source that is not active, or a failing display keeps
everything as it was. -/
theorem beginSession_effect (m : SessionManager P) (answers : Answers P) {source : SourceId}
    (event : SessionEvent P) (hother : m.active ≠ some source) :
    Effect m source event (m.beginSession answers source).1 := by
  unfold beginSession
  rw [if_neg hother]
  split
  next hsome =>
    obtain ⟨preempted, hpreempt⟩ := m.preempt_eq answers
    obtain ⟨calls, hactivate⟩ := (m.preempt answers).activate_eq source
    rw [hactivate, hpreempt]
    exact .began hother rfl rfl (by rw [if_pos hsome]; rfl)
  next hidle =>
    have hbegan (m' : SessionManager P) (hsame : SameSession m m') :
        Effect m source event (m'.activate source) := by
      obtain ⟨calls, hactivate⟩ := m'.activate_eq source
      rw [hactivate]
      exact .began hother rfl rfl (by rw [if_neg hidle]; exact hsame.holdings)
    split
    · unfold wakeDisplay
      cases answers.powerOn with
      | error e => exact .kept hother (m.sameSession_note _)
      | ok =>
        have hselect := (m.sameSession_note .powerOn).trans
          ((m.note .powerOn).sameSession_note (.selectInput m.config.outputInput))
        cases hanswer : answers.selectInput m.config.outputInput with
        | error e =>
          simp only [note, hanswer]
          exact .kept hother hselect
        | ok =>
          simp only [note, hanswer]
          exact hbegan _ hselect
    · exact hbegan m (.refl m)

/-- A call to the outside after the fact changes no effect. -/
theorem Effect.thenSame {m m' m'' : SessionManager P} {source : SourceId} {event : SessionEvent P}
    (h : Effect m source event m') (hsame : SameSession m' m'') : Effect m source event m'' := by
  cases h with
  | kept hother hkept => exact .kept hother (hkept.trans hsame)
  | heard howner hactive hcasting hholdings =>
    exact .heard howner (hsame.active.trans hactive) (hsame.casting.trans hcasting)
      (hsame.holdings.trans hholdings)
  | began hother hactive hcasting hholdings =>
    exact .began hother (hsame.active.trans hactive) (hsame.casting.trans hcasting)
      (hsame.holdings.trans hholdings)
  | idle hactive hcasting hholdings =>
    exact .idle (hsame.active.trans hactive) (hsame.casting.trans hcasting)
      (hsame.holdings.trans hholdings)

theorem beginAndCall_effect (m : SessionManager P) (answers : Answers P) {source : SourceId}
    {event : SessionEvent P} (hhear : ∀ held, Holdings.hear held event = held)
    (call : PipelineCall P) : Effect m source event (m.beginAndCall answers source call).1 := by
  have hbegin : Effect m source event (m.beginSession answers source).1 := by
    by_cases howner : m.active = some source
    · rw [beginSession, if_pos howner]
      exact .heard howner rfl rfl (hhear _).symm
    · exact m.beginSession_effect answers event howner
  unfold beginAndCall
  generalize m.beginSession answers source = begun at hbegin
  obtain ⟨m', error | ok⟩ := begun
  · exact hbegin
  · exact hbegin.thenSame (m'.sameSession_note _)

/-- Ending the session leaves the manager idle, whatever the pipeline says. -/
theorem endSession_eq (m : SessionManager P) (answers : Answers P) :
    ∃ calls, (m.endSession answers).1 =
      { m with
        active := none, remote := none, touch := none, casting := false, description := .new,
        calls := calls } := by
  obtain ⟨calls, h⟩ :=
    setTouch_eq { m with active := none, casting := false, remote := none } none
  simp only [endSession, callPipeline, h, showOsd]
  split
  · exact ⟨_, rfl⟩
  · exact ⟨_, rfl⟩

/-- **What one message does.** -/
theorem handle_effect (m : SessionManager P) (answers : Answers P) (message : SourceMessage P) :
    Effect m message.source message.event (m.handle answers message).1 := by
  obtain ⟨source, event⟩ := message
  -- The arms that only the active source may use, for which the others are refused.
  have howned {m' : SessionManager P × Except CoreError Unit}
      (hactive : m'.1.active = m.active) (hcasting : m'.1.casting = m.casting)
      (hholdings : m'.1.holdings = m.holdings.hear event) :
      Effect m source event
        (if m.active = some source then m' else m.noActiveSession source).1 := by
    split
    next howner => exact .heard howner hactive hcasting hholdings
    next hother => exact .kept hother (.refl m)
  cases event with
  | play request start | mirror video audio | audio frames format config | hostPage page =>
    exact m.beginAndCall_effect answers (fun _ => rfl) _
  | audioLatency latency | nowPlaying snapshot | upNext items | control txn
  | controlSurface remote => exact howned rfl rfl rfl
  | sourceInfo info =>
    have hsame := (sameSession_showOsd { m with description := m.description.merged info }
      (.show (.banner ("Now playing from " ++ (m.description.merged info).display)
        m.config.osdTtl))).trans (sameSession_note _ (.pipeline (.sourceInfo (m.description.merged info))))
    exact howned hsame.active hsame.casting hsame.holdings
  | touchSurface surface =>
    obtain ⟨calls, h⟩ := m.setTouch_eq (some surface)
    exact @howned (m.setTouch (some surface), .ok ()) (by rw [h]) (by rw [h]) (by rw [h]; rfl)
  | touchSurfaceRevoked =>
    obtain ⟨calls, h⟩ := m.setTouch_eq none
    exact @howned (m.setTouch none, .ok ()) (by rw [h]) (by rw [h]) (by rw [h]; rfl)
  | «end» =>
    unfold handle
    simp only
    split
    next =>
      obtain ⟨calls, h⟩ := m.endSession_eq answers
      rw [h]
      exact .idle rfl rfl rfl
    next hother => exact .kept hother (.refl m)

end SessionManager

/-! ## Runs -/

/-- The four events that take the panel, whoever holds it. -/
def SessionEvent.takesPanel : SessionEvent P → Bool
  | .play .. | .mirror .. | .audio .. | .hostPage _ => true
  | _ => false

/-- The event of `source` that the turn delivers, if it does. -/
def Turn.eventOf (source : SourceId) : Turn P → Option (SessionEvent P)
  | .heard _ message => if message.source = source then some message.event else none
  | .ended .. => none

/-- The events of `source` among the turns, in order. -/
def eventsOf (source : SourceId) (turns : List (Turn P)) : List (SessionEvent P) :=
  turns.filterMap (Turn.eventOf source)

/-- `source` said `event` in one of the turns. -/
def Published (source : SourceId) (event : SessionEvent P) (turns : List (Turn P)) : Prop :=
  ∃ answers, .heard answers ⟨source, event⟩ ∈ turns

theorem published_of_mem_eventsOf {source : SourceId} {event : SessionEvent P}
    {turns : List (Turn P)} (h : event ∈ eventsOf source turns) : Published source event turns := by
  obtain ⟨turn, hmem, hturn⟩ := List.mem_filterMap.mp h
  cases turn with
  | ended answers ending => cases hturn
  | heard answers message =>
    obtain ⟨sender, said⟩ := message
    obtain ⟨rfl, rfl⟩ : sender = source ∧ said = event := by simpa [Turn.eventOf] using hturn
    exact ⟨answers, hmem⟩

namespace SessionManager

/-- `source` is the active source. -/
def Active (source : SourceId) (m : SessionManager P) : Prop := m.active = some source

/-- The invariant of the run: the casting flag says whether a source is active,
and what is held is what the active source's events since it last became active
add up to. -/
structure Owned (start : SessionManager P) (turns : List (Turn P)) : Prop where
  casting : (start.run turns).casting = (start.run turns).active.isSome
  idle : (start.run turns).active = none → (start.run turns).holdings = .nothing
  owner : ∀ source, (start.run turns).active = some source → ∃ before began since,
    turns = before ++ began :: since ∧ HeldSince turn (Active source) start before began since ∧
    (start.run turns).holdings = .hearAll (eventsOf source since)

variable {start : SessionManager P} {turns : List (Turn P)}

theorem run_concat (start : SessionManager P) (turns : List (Turn P)) (next : Turn P) :
    start.run (turns ++ [next]) = (start.run turns).turn next :=
  List.foldl_concat ..

/-- The owner keeps the panel and hears what it said in this turn, if anything.
-/
theorem Owned.continue (h : Owned start turns) {next : Turn P}
    (hactive : ((start.run turns).turn next).active = (start.run turns).active)
    (hcasting : ((start.run turns).turn next).casting = (start.run turns).casting)
    (hidle : (start.run turns).active = none →
      ((start.run turns).turn next).holdings = (start.run turns).holdings)
    (howner : ∀ source, (start.run turns).active = some source →
      ((start.run turns).turn next).holdings =
        (next.eventOf source).toList.foldl Holdings.hear (start.run turns).holdings) :
    Owned start (turns ++ [next]) where
  casting := by rw [run_concat, hactive, hcasting, h.casting]
  idle := fun hnone => by
    rw [run_concat, hactive] at hnone
    rw [run_concat, hidle hnone, h.idle hnone]
  owner := fun source hsource => by
    rw [run_concat, hactive] at hsource
    obtain ⟨before, began, since, rfl, hheld, hholdings⟩ := h.owner source hsource
    refine ⟨before, began, since ++ [next], by simp, hheld.concat (hactive.trans hsource), ?_⟩
    rw [run_concat, howner source hsource, hholdings, eventsOf, eventsOf, List.filterMap_append,
      Holdings.hearAll, Holdings.hearAll, List.foldl_append]
    cases hevent : next.eventOf source <;> simp [hevent]

/-- The panel changes hands, and the new owner has published nothing yet. -/
theorem Owned.takeover {next : Turn P} {source : SourceId}
    (hother : (start.run turns).active ≠ some source)
    (hactive : ((start.run turns).turn next).active = some source)
    (hcasting : ((start.run turns).turn next).casting = true)
    (hholdings : ((start.run turns).turn next).holdings = .nothing) :
    Owned start (turns ++ [next]) where
  casting := by rw [run_concat, hactive, hcasting]; rfl
  idle := fun hnone => by
    rw [run_concat, hactive] at hnone
    cases hnone
  owner := fun owner howner => by
    rw [run_concat, hactive] at howner
    obtain rfl : source = owner := Option.some.inj howner
    refine ⟨turns, next, [], rfl, heldSince_began hother hactive, ?_⟩
    rw [run_concat, hholdings]
    rfl

theorem Owned.release {next : Turn P} (hactive : ((start.run turns).turn next).active = none)
    (hcasting : ((start.run turns).turn next).casting = false)
    (hholdings : ((start.run turns).turn next).holdings = .nothing) :
    Owned start (turns ++ [next]) where
  casting := by rw [run_concat, hactive, hcasting]; rfl
  idle := fun _ => by rw [run_concat, hholdings]
  owner := fun source hsource => by
    rw [run_concat, hactive] at hsource
    cases hsource

theorem Owned.turn (h : Owned start turns) (next : Turn P) : Owned start (turns ++ [next]) := by
  cases next with
  | heard answers message =>
    cases (start.run turns).handle_effect answers message with
    | kept hother hsame =>
      refine h.continue hsame.active hsame.casting (fun _ => hsame.holdings) ?_
      intro source hsource
      have hne : message.source ≠ source := fun heq => hother (heq ▸ hsource)
      simpa [SessionManager.turn, Turn.eventOf, hne] using hsame.holdings
    | heard howner hactive hcasting hholdings =>
      refine h.continue hactive hcasting (fun hnone => ?_) ?_
      · rw [howner] at hnone
        cases hnone
      · intro source hsource
        obtain rfl : message.source = source := Option.some.inj (howner.symm.trans hsource)
        simpa [SessionManager.turn, Turn.eventOf] using hholdings
    | began hother hactive hcasting hholdings =>
      refine .takeover hother hactive hcasting ?_
      change ((start.run turns).handle answers message).1.holdings = .nothing
      rw [hholdings]
      split
      · rfl
      next hnone => exact h.idle (by simpa using hnone)
    | idle hactive hcasting hholdings => exact .release hactive hcasting hholdings
  | ended answers ending =>
    cases hactive : (start.run turns).active with
    | none =>
      have hsame : (start.run turns).turn (.ended answers ending) = start.run turns := by
        simp only [SessionManager.turn, mediaEnded, hactive]
      refine h.continue (by rw [hsame]) (by rw [hsame]) (fun _ => by rw [hsame]) ?_
      intro source hsource
      rw [hsame]
      rfl
    | some source =>
      obtain ⟨calls, hend⟩ : ∃ calls, (start.run turns).turn (.ended answers ending) =
          { start.run turns with
            active := none, remote := none, touch := none, casting := false,
            description := .new, calls := calls } := by
        simp only [SessionManager.turn, mediaEnded, hactive]
        cases hremote : (start.run turns).remote with
        | none =>
          obtain ⟨calls, hend⟩ := (start.run turns).endSession_eq answers
          exact ⟨calls, by simpa only [handle, hactive, if_pos] using hend⟩
        | some remote =>
          obtain ⟨calls, hend⟩ :=
            ((start.run turns).note (.mediaEnded remote ending)).endSession_eq answers
          exact ⟨calls, by simpa only [handle, reportEnd, note, hactive, if_pos] using hend⟩
      exact .release (by rw [hend]) (by rw [hend]) (by rw [hend]; rfl)

theorem owned_new (display osd : Bool) (config : SessionConfig) :
    Owned (new display osd config : SessionManager P) [] where
  casting := rfl
  idle := fun _ => rfl
  owner := fun _ hsource => by cases hsource

theorem owned_run (display osd : Bool) (config : SessionConfig) (turns : List (Turn P)) :
    Owned (new display osd config) turns := by
  induction turns using List.reverseRecOn with
  | nil => exact owned_new display osd config
  | append_singleton turns next ih => exact ih.turn next

/-- A source that is not active changes nothing, and no call is made for it,
unless its event takes the panel. -/
theorem handle_of_not_active (m : SessionManager P) (answers : Answers P) {source : SourceId}
    {event : SessionEvent P} (hother : m.active ≠ some source)
    (htakes : event.takesPanel = false) : (m.handle answers ⟨source, event⟩).1 = m := by
  cases event with
  | play | mirror | audio | hostPage => cases htakes
  | _ => simp only [handle, if_neg hother, noActiveSession]

/-- **Session ownership.**  In every state the event loop reaches, whatever the
pipeline, the display and the remotes answer: the casting flag says whether a
source is active; an idle manager holds nothing; and all that is held under an
active source was published by that source since it last became active, which is
the turn `began`.  A source that is not active changes nothing and makes no
call, unless its event is one of the four that take the panel. -/
theorem session_ownership (display osd : Bool) (config : SessionConfig) (turns : List (Turn P)) :
    let start := new display osd config
    let m := start.run turns
    (m.casting = true ↔ m.active.isSome) ∧
    (m.active = none → m.remote = none ∧ m.touch = none ∧ m.description.isEmpty = true) ∧
    (∀ source, m.active = some source → ∃ before began since,
      turns = before ++ began :: since ∧
      HeldSince turn (Active source) start before began since ∧
      (∀ remote, m.remote = some remote → Published source (.controlSurface remote) since) ∧
      (∀ surface, m.touch = some surface → Published source (.touchSurface surface) since) ∧
      (∀ name, m.description.displayName = some name →
        ∃ info, Published source (.sourceInfo info) since ∧ info.displayName = some name) ∧
      (∀ address, m.description.address = some address →
        ∃ info, Published source (.sourceInfo info) since ∧ info.address = some address) ∧
      (∀ link, m.description.link = some link →
        ∃ info, Published source (.sourceInfo info) since ∧ info.link = some link)) ∧
    (∀ answers source event, m.active ≠ some source → event.takesPanel = false →
      (m.handle answers ⟨source, event⟩).1 = m) := by
  intro start m
  have howned := owned_run display osd config turns
  refine ⟨by rw [howned.casting], fun hnone => ?_, fun source hsource => ?_,
    fun answers source event hother htakes => m.handle_of_not_active answers hother htakes⟩
  · have hnothing := howned.idle hnone
    exact ⟨congrArg Holdings.remote hnothing, congrArg Holdings.touch hnothing,
      congrArg (fun held => held.description.isEmpty) hnothing⟩
  · obtain ⟨before, began, since, hturns, hheld, hholdings⟩ := howned.owner source hsource
    have hinfo (field : SourceDescription → Option String) (hnew : field .new = none)
        (hmerged : ∀ self other, field (.merged self other) =
          if (field other).isSome then field other else field self)
        (text : String) (hfield : field m.description = some text) :
        ∃ info, Published source (.sourceInfo info) since ∧ field info = some text := by
      have hheard : field (Holdings.hearAll (eventsOf source since)).description = some text := by
        rw [← hholdings]
        exact hfield
      obtain ⟨info, hmem, hinfo⟩ := Holdings.exists_sourceInfo field hnew hmerged hheard
      exact ⟨info, published_of_mem_eventsOf hmem, hinfo⟩
    refine ⟨before, began, since, hturns, hheld, fun remote hremote => ?_,
      fun surface hsurface => ?_, hinfo _ rfl fun _ _ => rfl, hinfo _ rfl fun _ _ => rfl,
      hinfo _ rfl fun _ _ => rfl⟩
    · exact published_of_mem_eventsOf (Holdings.exists_controlSurface
        ((congrArg Holdings.remote hholdings).symm.trans hremote))
    · exact published_of_mem_eventsOf (Holdings.exists_touchSurface
        ((congrArg Holdings.touch hholdings).symm.trans hsurface))

end SessionManager

end Castaway.Core
