import Castaway.Dlna.Events
import Mathlib.Data.List.Perm.Basic

/-!
# Runs of the event service

`Kept` is what every move of an orderly run keeps: the books, the openings, the
`Turn` of each service and what follows what.  `step_kept` goes through the
moves, and `advance_kept` through the locks of a task.

`orderly_told` is about every orderly run.  `overtaken_told` is a run that is
not one: two volumes are set at a time, the one set first is numbered last, and
the subscriber is left with it.
-/

namespace Castaway.Dlna

open Castaway.Core (ControlTxn Payloads)
open List

section

variable {P : Payloads} {media : Media P} {s s' : Service} {ts : List Task}
  {service : EventedService} {sid : String} {r : Renderer} {rest : List EventedService}

/-- What an orderly run keeps. -/
structure Kept (media : Media P) (s : Service) : Prop where
  books : Books s
  openings : Openings s
  turns : ∀ service, Turn service s.tasks (s.last service) (s.current service) (s.latest service)
  changes : ∀ sid, (s.handedTo sid).IsChain Follows
  stored : Renderer.Stored media s.renderer

/-- What is kept says what a subscriber relies on. -/
theorem Kept.told (h : Kept media s) : Told s where
  sequence := h.books.sequence
  initial := h.openings.initial
  changes := h.changes
  current := by
    intro hrest sub hsub hlive
    have hnone : ¬ Opening s.tasks sub.service sub.sid := by simp [Opening, hrest]
    have hto : s.handedTo sub.sid ≠ [] := (h.openings.opened sub hsub hlive).resolve_left hnone
    have hturn := hrest ▸ h.turns sub.service
    obtain ⟨e, he⟩ : ∃ e, (s.handedTo sub.sid).getLast? = some e :=
      ⟨_, getLast?_eq_some_getLast hto⟩
    exact ⟨e, he, hturn.rest ⟨sub, hsub, rfl, he⟩⟩

theorem start_kept (now : ℕ) : Kept media (Service.start now) where
  books := ⟨nodup_nil, fun _ h => (by cases h), fun _ h => (by cases h), fun _ => rfl,
    fun _ h => (by cases h)⟩
  openings := by
    have hnone (service : EventedService) (sid : String) :
        ¬ Opening (Service.start now).tasks service sid := by simp [Opening, Service.start]
    exact ⟨fun service sid h => absurd h (hnone service sid), fun _ h => (by cases h),
      nodup_nil, fun service sid h => absurd h (hnone service sid), fun _ h => (by cases h),
      fun _ h => (by cases h)⟩
  turns := by
    intro service
    have hholds (p : Properties) : ¬ Holds (Service.start now).tasks service p := by
      simp [Holds, Compares, Numbers, Service.start]
    have hlatest (e : Handed) : ¬ (Service.start now).latest service e := by
      rintro ⟨sub, hsub, -⟩
      cases hsub
    refine ⟨fun p _ hp => absurd hp (hholds p), fun p hp => absurd hp (hholds p), .inr (.inl rfl),
      fun p hp => absurd (.inr hp) (hholds p), Nat.zero_le 1, fun _ => .inr (.inr ⟨?_, ?_⟩),
      fun e he => absurd he (hlatest e), fun e he => absurd he (hlatest e)⟩
    · exact fun e he => absurd he (hlatest e)
    · rintro sid p hp
      cases hp
  changes := fun _ => isChain_nil
  stored := ⟨fun _ h => (by cases h), fun _ h => (by cases h)⟩

/-! ## The order of the tasks, and what they are not doing -/

theorem mem_filterMap_opening :
    Opening ts service sid ↔ (service, sid) ∈ ts.filterMap Task.opening :=
  List.mem_filterMap.symm

section

variable (h : Kept media s)
include h

/-- The table is left alone, and so are the openings. -/
theorem Kept.redo {published : List (EventedService × Properties)}
    (hopening : (ts.filterMap Task.opening).Perm (s.tasks.filterMap Task.opening))
    (hturns : ∀ service, Turn service ts (published.lookup service) (service.properties r)
      (s.latest service)) (hstored : r.Stored media) :
    Kept media { s with renderer := r, published := published, tasks := ts } := by
  have hiff (service : EventedService) (sid : String) :
      Opening ts service sid ↔ Opening s.tasks service sid := by
    rw [mem_filterMap_opening, mem_filterMap_opening, hopening.mem_iff]
  refine ⟨⟨h.books.sids, h.books.known, h.books.handedKnown, h.books.sequence, h.books.next⟩,
    ⟨?_, ?_, ?_, ?_, ?_, h.openings.initial⟩, hturns, h.changes, hstored⟩
  · exact fun service sid ho => h.openings.known service sid ((hiff service sid).mp ho)
  · exact fun sub hsub service ho => h.openings.served sub hsub service ((hiff _ _).mp ho)
  · exact (hopening.map _).nodup_iff.mpr h.openings.once
  · exact fun service sid ho => h.openings.unopened service sid ((hiff service sid).mp ho)
  · exact fun sub hsub hlive => (h.openings.opened sub hsub hlive).imp (hiff _ _).mpr id

theorem Kept.perm (hperm : s.tasks.Perm ts) :
    Kept media { s with tasks := ts } :=
  h.redo (hperm.symm.filterMap _) (fun service => (h.turns service).perm hperm) h.stored

/-- The renderer has changed, but nothing that is evented. -/
theorem Kept.unseen (hstored : r.Stored media)
    (hsame : ∀ service, service.properties r = s.current service) :
    Kept media { s with renderer := r } :=
  h.redo (.refl _) (fun service => (hsame service).symm ▸ h.turns service) hstored

/-- A change of the renderer goes on to publish the two services it can show in.
-/
theorem Kept.changed (hstored : r.Stored media) :
    Kept media (s.changed r) := by
  have hperm := perm_append_singleton (Task.reading .avTransport [.renderingControl]) s.tasks
  have hopening : ((s.tasks ++ [Task.reading .avTransport [.renderingControl]]).filterMap
      Task.opening).Perm (s.tasks.filterMap Task.opening) := by
    rw [filterMap_append]
    exact .of_eq (append_nil _)
  refine h.redo hopening (fun service => Turn.perm ?_ hperm.symm) hstored
  have hcompares (p : Properties) : Compares (Task.reading .avTransport [.renderingControl] ::
      s.tasks) service p ↔ Compares s.tasks service p := by simp [Task.compares]
  have hnumbers (p : Properties) : Numbers (Task.reading .avTransport [.renderingControl] ::
      s.tasks) service p ↔ Numbers s.tasks service p := by simp [Task.numbers]
  have hcount : numberers (Task.reading .avTransport [.renderingControl] :: s.tasks) service ≤
      numberers s.tasks service := Nat.le_of_eq numberers_cons
  cases service with
  | avTransport | renderingControl =>
    exact (h.turns _).stale _ (toRead_cons.mpr (.inl (by simp [Task.toRead]))) hcompares
      hnumbers hcount
  | connectionManager =>
    -- What the third service is sent never changes.
    refine (h.turns .connectionManager).congr ?_ hcompares hnumbers hcount ?_
    · simp [Task.toRead]
    · simp

/-- Nothing is numbered, and nobody's opening is forgotten. -/
theorem Kept.trims (htrims : Trims s s') (htasks : s'.tasks = s.tasks)
    (hpublished : s'.published = s.published) (hrenderer : s'.renderer = s.renderer) :
    Kept media s' where
  books := h.books.hands htrims
  openings := h.openings.hands h.books htrims (fun _ _ => by rw [htasks]; exact id)
    (fun _ _ _ ho => .inl (by rw [htasks]; exact ho)) (by rw [htasks]; exact h.openings.once)
    (fun _ _ hP => hP.elim) (fun _ _ hP => hP.elim)
  turns := by
    intro service
    have hturn := h.turns service
    rw [← htasks, Service.last, ← hpublished, Service.current, ← hrenderer] at hturn
    refine hturn.fewer fun e he => ?_
    rcases htrims.latest h.books he with he | ⟨_, _, _, hP, _⟩
    · exact he
    · exact hP.elim
  changes := htrims.changes h.changes fun _ _ hP => hP.elim
  stored := by
    rw [hrenderer]
    exact h.stored

end

/-! ## The moves of a request -/

/-- A refused action leaves the renderer as it was. -/
theorem dispatch_refused {kind : ServiceKind} {action : SoapAction}
    (h : r.Stored media) {e : DlnaError} (he : (Service.dispatch media kind action r).2 = .error e) :
    (Service.dispatch media kind action r).1 = r := by
  cases kind with
  | avTransport => exact Renderer.avTransport_refused h he
  | renderingControl => exact Renderer.renderingControl_refused he
  | connectionManager => rfl

theorem dispatch_stored {kind : ServiceKind} {action : SoapAction}
    (h : r.Stored media) : (Service.dispatch media kind action r).1.Stored media := by
  cases kind with
  | avTransport => exact Renderer.avTransport_stored h
  | renderingControl =>
    exact h.of_uris Renderer.renderingControl_uris.1 Renderer.renderingControl_uris.2
  | connectionManager => exact h

/-- A control request changes the renderer once, and queues its task with the
change. -/
theorem handleControl_kept (h : Kept media s) (kind : ServiceKind)
    (request : Except DlnaError SoapAction) (fault : Option DlnaError)
    (progress : Option PlaybackProgress) :
    Kept media (s.handleControl media kind request fault progress) := by
  have hobserved : (s.renderer.observeProgress progress).Stored media :=
    h.stored.observeProgress progress
  unfold Service.handleControl
  cases request with
  | error e => exact h
  | ok action =>
    dsimp only
    split
    · exact h
    · split
      · rename_i e he
        have hsame := dispatch_refused hobserved he
        rw [hsame]
        exact h.unseen hobserved fun service =>
          service.properties_observeProgress s.renderer progress
      · exact h.changed (dispatch_stored hobserved)

/-- A new subscription waits for its initial event. -/
theorem Kept.add (h : Kept media s)
    (hfresh : sid ∉ s.minted) (callbacks : List String) (expires : ℕ) : Kept media ({ s with
      subscribers := Subscribers.add s.subscribers ⟨sid, service, callbacks, 0, expires, 0⟩
      minted := sid :: s.minted }.spawn (some (.readingFor service sid))) := by
  have hperm := perm_append_singleton (Task.readingFor service sid) s.tasks
  have hunheard : s.handedTo sid = [] := by
    rw [Service.handedTo, filter_eq_nil_iff]
    exact fun e he hsid => hfresh (eq_of_beq hsid ▸ h.books.handedKnown e he)
  have hopening (service' : EventedService) (sid' : String) :
      Opening (s.tasks ++ [Task.readingFor service sid]) service' sid' ↔
        (service = service' ∧ sid = sid') ∨ Opening s.tasks service' sid' := by
    have hcons : Opening (s.tasks ++ [Task.readingFor service sid]) service' sid' ↔
        Opening (Task.readingFor service sid :: s.tasks) service' sid' :=
      exists_congr fun t => and_congr_left' hperm.mem_iff
    rw [hcons, opening_cons, Task.opening, Option.some_inj, Prod.mk.injEq]
  have hother (sub : Subscription) (hsub : sub ∈ s.subscribers) : sid ≠ sub.sid :=
    fun heq => hfresh (heq ▸ h.books.known sub hsub)
  refine ⟨⟨?_, ?_, ?_, h.books.sequence, ?_⟩, ⟨?_, ?_, ?_, ?_, ?_, h.openings.initial⟩,
    fun service' => ?_, h.changes, h.stored⟩
  · have hsids : (s.subscribers.map (·.sid) ++ [sid]).Nodup := by
      rw [nodup_append]
      refine ⟨h.books.sids, nodup_singleton _, ?_⟩
      rintro _ hmem _ hsid rfl
      obtain ⟨sub, hsub, heq⟩ := mem_map.mp hmem
      exact hother sub hsub ((mem_singleton.mp hsid).symm.trans heq.symm)
    simpa [Service.spawn, Subscribers.add] using hsids
  · intro sub hsub
    rcases mem_append.mp hsub with hsub | hsub
    · exact mem_cons_of_mem _ (h.books.known sub hsub)
    · rw [mem_singleton.mp hsub]
      exact mem_cons_self ..
  · exact fun e he => mem_cons_of_mem _ (h.books.handedKnown e he)
  · intro sub hsub
    rcases mem_append.mp hsub with hsub | hsub
    · exact h.books.next sub hsub
    · rw [mem_singleton.mp hsub]
      change 0 = seqAt (s.handedTo sid).length
      rw [hunheard]
      rfl
  · intro service' sid' ho
    rcases (hopening service' sid').mp ho with ⟨-, rfl⟩ | ho
    · exact mem_cons_self ..
    · exact mem_cons_of_mem _ (h.openings.known service' sid' ho)
  · intro sub hsub service' ho
    rcases (hopening service' sub.sid).mp ho with ⟨rfl, hsid⟩ | ho
    · rcases mem_append.mp hsub with hsub | hsub
      · exact absurd hsid (hother sub hsub)
      · rw [mem_singleton.mp hsub]
    · rcases mem_append.mp hsub with hsub | hsub
      · exact h.openings.served sub hsub service' ho
      · rw [mem_singleton.mp hsub] at ho
        exact absurd (h.openings.known service' sid ho) hfresh
  · have honce : (((Task.readingFor service sid :: s.tasks).filterMap Task.opening).map
        (·.2)).Nodup := by
      refine nodup_cons.mpr ⟨fun hmem => ?_, h.openings.once⟩
      obtain ⟨⟨service', sid'⟩, hopen, hsid⟩ := mem_map.mp hmem
      obtain rfl : sid' = sid := hsid
      exact hfresh (h.openings.known service' sid' (mem_filterMap_opening.mpr hopen))
    exact ((hperm.filterMap _).map _).nodup_iff.mpr honce
  · intro service' sid' ho
    rcases (hopening service' sid').mp ho with ⟨-, rfl⟩ | ho
    · exact hunheard
    · exact h.openings.unopened service' sid' ho
  · intro sub hsub hlive
    rcases mem_append.mp hsub with hsub | hsub
    · exact (h.openings.opened sub hsub hlive).imp (fun ho => (hopening _ _).mpr (.inr ho)) id
    · rw [mem_singleton.mp hsub]
      exact .inl ((hopening service sid).mpr (.inl ⟨rfl, rfl⟩))
  · have hturn : Turn service' (Task.readingFor service sid :: s.tasks) (s.last service')
        (s.current service') (s.latest service') := by
      refine (h.turns service').congr ?_ (fun p => ?_) (fun p => ?_)
        (Nat.le_of_eq numberers_cons) ?_
      · simp [Task.toRead]
      · simp [Task.compares]
      · simp [Task.numbers]
      · simp
    refine (hturn.perm hperm.symm).fewer ?_
    rintro e ⟨sub, hsub, hservice, hlast⟩
    rcases mem_append.mp hsub with hsub | hsub
    · exact ⟨sub, hsub, hservice, hlast⟩
    · rw [mem_singleton.mp hsub] at hlast
      have hnone : (s.handedTo sid).getLast? = some e := hlast
      rw [hunheard] at hnone
      cases hnone

/-- A subscription is opened, renewed or refused. -/
theorem subscribe_kept (h : Kept media s) (service : EventedService)
    (callback nt sid : Option String) (minted : String) :
    Kept media (s.subscribe service callback nt sid minted) := by
  have hexpired : Kept media
      { s with subscribers := Subscribers.expire s.subscribers s.now } :=
    h.trims (.filter rfl) rfl rfl rfl
  unfold Service.subscribe
  split
  · exact h
  · exact hexpired.trims (.renew hexpired.books _) rfl rfl rfl
  · split
    · exact h
    · rename_i hfresh
      exact hexpired.add hfresh _ _

/-! ## The locks of a task -/

/-- What the books say does not depend on the tasks. -/
theorem Hands.retask {P : Subscription → Prop} {ev : Subscription → Handed} (h : Hands s s' P ev)
    (ts ts' : List Task) : Hands { s with tasks := ts } { s' with tasks := ts' } P ev :=
  ⟨h.minted, h.sids, h.subs, h.handed, h.named⟩

theorem Books.retask (h : Books s) (ts : List Task) : Books { s with tasks := ts } :=
  ⟨h.sids, h.known, h.handedKnown, h.sequence, h.next⟩

section

variable {service : EventedService} {task task' : Task} {left : Option Task}
  {rest : List EventedService} {p current : Properties} {last : Option Properties}
  {latest : Handed → Prop}

/-- Nothing of a task is left but the services it has yet to read. -/
structure GoesOn (rest : List EventedService) (left : Option Task) : Prop where
  read : ∀ service, service ∈ rest ↔ ∃ t ∈ left, service ∈ t.toRead
  idle : ∀ t ∈ left, t.compares = none ∧ t.numbers = none ∧ t.opening = none

/-- After a service is done the publication goes on to the next. -/
theorem goesOn_publishing (rest : List EventedService) : GoesOn rest (Task.publishing rest) := by
  cases rest with
  | nil => exact ⟨by simp [Task.publishing], by simp [Task.publishing]⟩
  | cons service rest =>
    refine ⟨by simp [Task.publishing, Task.toRead], fun t ht => ?_⟩
    obtain rfl : Task.reading service rest = t := Option.mem_some_iff.mp ht
    exact ⟨rfl, rfl, rfl⟩

theorem goesOn_sending (batch : List (String × ℕ × List String)) (rest : List EventedService) :
    GoesOn rest (Task.sending batch rest) := by
  cases batch with
  | nil => exact goesOn_publishing rest
  | cons entry batch =>
    refine ⟨by simp [Task.sending, Task.toRead], fun t ht => ?_⟩
    obtain rfl : Task.delivering (entry :: batch) rest = t := Option.mem_some_iff.mp ht
    exact ⟨rfl, rfl, rfl⟩

namespace GoesOn

/-- A task that goes on adds nothing but the services it has still to read. -/
theorem toRead (h : GoesOn rest left) :
    ToRead (left.toList ++ ts) service ↔ service ∈ rest ∨ ToRead ts service := by
  rw [h.read service]
  cases left <;> simp

theorem compares (h : GoesOn rest left) :
    Compares (left.toList ++ ts) service p ↔ Compares ts service p := by
  cases left with
  | none => rfl
  | some t => simp [(h.idle t rfl).1]

theorem numbers (h : GoesOn rest left) :
    Numbers (left.toList ++ ts) service p ↔ Numbers ts service p := by
  cases left with
  | none => rfl
  | some t => simp [(h.idle t rfl).2.1]

theorem numberers (h : GoesOn rest left) :
    numberers (left.toList ++ ts) service = Dlna.numberers ts service := by
  cases left with
  | none => rfl
  | some t =>
    have hidle := (h.idle t rfl).2.1
    rw [Option.toList_some, singleton_append, numberers_cons, hidle]
    rfl

theorem opening (h : GoesOn rest left) :
    (left.toList ++ ts).filterMap Task.opening = ts.filterMap Task.opening := by
  cases left with
  | none => rfl
  | some t =>
    rw [Option.toList_some, singleton_append, filterMap_cons_none (h.idle t rfl).2.2]

theorem initial (h : GoesOn rest left) {sid : String}
    (hmem : Task.numberingFor service sid p ∈ left.toList ++ ts) :
    Task.numberingFor service sid p ∈ ts := by
  rcases mem_append.mp hmem with hmem | hmem
  · cases (h.idle _ (Option.mem_toList.mp hmem)).2.2
  · exact hmem

end GoesOn

/-- A task goes on that did nothing with this service but will. -/
theorem Turn.goOn (h : Turn service (task :: ts) last current latest) (hleft : GoesOn rest left)
    (hread : service ∈ task.toRead ↔ service ∈ rest)
    (hcompares : ∀ p, task.compares ≠ some (service, p))
    (hnumbers : ∀ p, task.numbers ≠ some (service, p)) :
    Turn service (left.toList ++ ts) last current latest := by
  refine h.congr ?_ (fun p => ?_) (fun p => ?_) ?_ fun sid p hp => ?_
  · rw [hleft.toRead, toRead_cons, hread]
  · rw [hleft.compares, compares_cons]
    simp [hcompares p]
  · rw [hleft.numbers, numbers_cons]
    simp [hnumbers p]
  · rw [hleft.numberers, numberers_cons]
    exact Nat.le_add_right _ _
  · exact mem_cons_of_mem _ (hleft.initial hp)

/-- A task goes on that does with this service what it did before. -/
theorem Turn.swap (h : Turn service (task :: ts) last current latest)
    (hread : service ∈ task'.toRead ↔ service ∈ task.toRead)
    (hcompares : ∀ p, task'.compares = some (service, p) ↔ task.compares = some (service, p))
    (hnumbers : ∀ p, task'.numbers = some (service, p) ↔ task.numbers = some (service, p))
    (hinitial : ∀ sid p, task' ≠ .numberingFor service sid p) :
    Turn service (task' :: ts) last current latest := by
  refine h.congr ?_ (fun p => ?_) (fun p => ?_) ?_ fun sid p hp => ?_
  · rw [toRead_cons, toRead_cons, hread]
  · rw [compares_cons, compares_cons, hcompares]
  · rw [numbers_cons, numbers_cons, hnumbers]
  · have hsame : task'.numbers.map (·.1) = some service ↔ task.numbers.map (·.1) = some service := by
      simp only [Option.map_eq_some_iff, Prod.exists, exists_and_right, exists_eq_right, hnumbers]
    rw [numberers_cons, numberers_cons]
    simp only [beq_iff_eq, hsame, le_refl]
  · rcases mem_cons.mp hp with hp | hp
    · exact absurd hp.symm (hinitial sid p)
    · exact mem_cons_of_mem _ hp

end

/-- What is read is the state of the service at that moment. -/
theorem reading_kept (h : Kept media { s with tasks := .reading service rest :: s.tasks })
    (hturn : ∀ p, Holds (.reading service rest :: s.tasks) service p → p = s.current service) :
    Kept media { s with tasks := .comparing service (s.current service) rest :: s.tasks } := by
  refine h.redo (.refl _) (fun other => ?_) h.stored
  by_cases hother : other = service
  · subst hother
    exact (h.turns other).read hturn
  · refine (h.turns other).swap ?_ (fun p => ?_) (fun p => ?_) fun sid p => ?_
    · simp [Task.toRead, hother]
    · simp [Task.compares, Ne.symm hother]
    · simp [Task.numbers]
    · exact Task.noConfusion

theorem lookup_cons_eq (entry : EventedService × Properties)
    (published : List (EventedService × Properties)) (other : EventedService) :
    (entry :: published).lookup other =
      if other = entry.1 then some entry.2 else published.lookup other := by
  rw [lookup_cons]
  by_cases hother : other = entry.1
  · rw [if_pos hother, beq_iff_eq.mpr hother]
  · rw [if_neg hother, beq_eq_false_iff_ne.mpr hother]

theorem last_remember (published : List (EventedService × Properties))
    (service other : EventedService) (p : Properties) :
    (Service.remember published service p).lookup other =
      if other = service then some p else published.lookup other := by
  induction published with
  | nil => exact lookup_cons_eq (service, p) [] other
  | cons entry published ih =>
    rw [Service.remember]
    by_cases hentry : entry.1 = service
    · rw [if_pos hentry, lookup_cons_eq, lookup_cons_eq, hentry]
      split <;> rfl
    · rw [if_neg hentry, lookup_cons_eq, lookup_cons_eq, ih]
      by_cases hother : other = service
      · rw [if_pos hother, if_pos hother, if_neg fun heq => hentry (heq.symm.trans hother)]
      · rw [if_neg hother, if_neg hother]

/-- What was published last is not numbered again, and anything else takes its
place. -/
theorem comparing_kept {p : Properties}
    (h : Kept media { s with tasks := .comparing service p rest :: s.tasks }) :
    Kept media { (s.compare service p rest).1 with
      tasks := (s.compare service p rest).2.toList ++ s.tasks } := by
  unfold Service.compare
  split
  · rename_i hsame
    have hleft := goesOn_publishing rest
    refine h.redo (.of_eq hleft.opening) (fun other => ?_) h.stored
    by_cases hother : other = service
    · subst hother
      have hturn := h.turns other
      have hlast : ({ s with tasks := .comparing other p rest :: s.tasks } : Service).last other =
          some p := hsame
      rw [hlast] at hturn
      change Turn other _ (s.last other) _ _
      rw [hsame]
      exact hturn.compareSame hleft.toRead (fun _ => hleft.compares) (fun _ => hleft.numbers)
        hleft.numberers
    · refine (h.turns other).goOn hleft Iff.rfl (fun q => ?_) fun q => ?_
      · simp [Task.compares, Ne.symm hother]
      · simp [Task.numbers]
  · rename_i hnew
    refine h.redo (.refl _) (fun other => ?_) h.stored
    rw [last_remember]
    by_cases hother : other = service
    · subst hother
      rw [if_pos rfl]
      exact (h.turns other).compareNew hnew
    · rw [if_neg hother]
      refine (h.turns other).swap Iff.rfl (fun q => ?_) (fun q => ?_) fun sid q => ?_
      · simp [Task.compares, Ne.symm hother]
      · simp [Task.numbers, Ne.symm hother]
      · exact Task.noConfusion

/-- The events of a service are numbered while none of its subscribers waits for
the initial one. -/
theorem numbering_kept {p : Properties}
    (h : Kept media { s with tasks := .numbering service p rest :: s.tasks })
    (hturn : ∀ sub ∈ s.subscribers, sub.service = service → sub.live s.now = true →
      ¬ Opening (.numbering service p rest :: s.tasks) service sub.sid) :
    Kept media { (s.number service p rest).1 with
      tasks := (s.number service p rest).2.toList ++ s.tasks } := by
  have hbooks : Books s := h.books.retask s.tasks
  have hhands := (@hands_number s service p rest hbooks).retask
    (.numbering service p rest :: s.tasks) ((s.number service p rest).2.toList ++ s.tasks)
  have hleft : GoesOn rest (s.number service p rest).2 := goesOn_sending _ rest
  -- The subscribers that are handed an event have had one.
  have hheard (sub : Subscription) (hsub : sub ∈ s.subscribers)
      (hwants : Subscribers.wants service s.now sub = true) : s.handedTo sub.sid ≠ [] := by
    obtain ⟨hservice, hlive⟩ := wants_iff.mp hwants
    exact (h.openings.opened sub hsub hlive).resolve_left
      (hservice ▸ hturn sub hsub hservice hlive)
  have hopening (service' : EventedService) (sid : String) :
      Opening ((s.number service p rest).2.toList ++ s.tasks) service' sid ↔
        Opening (.numbering service p rest :: s.tasks) service' sid := by
    rw [mem_filterMap_opening, mem_filterMap_opening, hleft.opening]
    rfl
  refine ⟨h.books.hands hhands, h.openings.hands h.books hhands
      (fun service' sid => (hopening service' sid).mp)
      (fun sub _ _ ho => .inl ((hopening _ _).mpr ho)) ?_ (fun sub hsub hwants service' ho => ?_)
      (fun sub hsub hwants => ?_), fun other => ?_,
    hhands.changes h.changes (fun sub hsub hwants e he => ?_), h.stored⟩
  · rw [hleft.opening]
    exact h.openings.once
  · obtain ⟨hservice, hlive⟩ := wants_iff.mp hwants
    have hsame : service' = service :=
      (h.openings.served sub hsub service' ((hopening _ _).mp ho)).trans hservice
    exact hturn sub hsub hservice hlive (hsame ▸ (hopening _ _).mp ho)
  · have hseq : sub.seq ≠ 0 := by
      rw [h.books.next sub hsub]
      exact fun hzero => hheard sub hsub hwants (length_eq_zero_iff.mp (seqAt_eq_zero.mp hzero))
    exact ⟨fun hzero => absurd hzero hseq, fun hinitial => absurd hinitial Bool.false_ne_true⟩
  · by_cases hother : other = service
    · subst hother
      exact (h.turns other).number hleft.toRead (fun _ => hleft.compares) hleft.numberers
        fun e he => @latest_number s other p rest hbooks e he
    · refine ((h.turns other).goOn hleft Iff.rfl (fun q => ?_) fun q => ?_).fewer fun e he => ?_
      · simp [Task.compares]
      · simp [Task.numbers, Ne.symm hother]
      · rcases hhands.latest h.books he with he | ⟨sub, -, hservice, hwants, -⟩
        · exact he
        · exact absurd (hservice.symm.trans (wants_iff.mp hwants).1) hother
  · obtain ⟨hservice, hlive⟩ := wants_iff.mp hwants
    cases hinitial : e.initial with
    | true => exact .inl hinitial
    | false =>
      have hdiffers := (h.turns service).differs e ⟨sub, hsub, hservice, he⟩ hinitial
      exact .inr (.inr (hdiffers.1 p (numbers_cons.mpr (.inl rfl))))

theorem readingFor_kept (h : Kept media { s with tasks := .readingFor service sid :: s.tasks }) :
    Kept media { s with tasks := .numberingFor service sid (s.current service) :: s.tasks } := by
  refine h.redo (.refl _) (fun other => ?_) h.stored
  by_cases hother : other = service
  · subst hother
    exact (h.turns other).readFor
  · refine (h.turns other).swap Iff.rfl (fun p => ?_) (fun p => ?_) fun sid' p heq => ?_
    · simp [Task.compares]
    · simp [Task.numbers]
    · exact hother (Task.numberingFor.inj heq).1.symm

/-- An initial event is numbered when it says what was last published. -/
theorem numberingFor_kept {p : Properties}
    (h : Kept media { s with tasks := .numberingFor service sid p :: s.tasks })
    (hturn : s.last service = none ∨ s.last service = some p ∨
      ∃ q, Numbers (.numberingFor service sid p :: s.tasks) service q) :
    Kept media { (s.numberFor service sid p).1 with
      tasks := (s.numberFor service sid p).2.toList ++ s.tasks } := by
  have hbooks : Books s := h.books.retask s.tasks
  have honce : sid ∉ (s.tasks.filterMap Task.opening).map (·.2) ∧
      ((s.tasks.filterMap Task.opening).map (·.2)).Nodup := nodup_cons.mp h.openings.once
  -- Nobody else sends this subscriber its initial event.
  have hclosed (service' : EventedService) : ¬ Opening s.tasks service' sid := fun ho =>
    honce.1 (mem_map.mpr ⟨(service', sid), mem_filterMap_opening.mp ho, rfl⟩)
  have hswap (other : EventedService) (hother : other ≠ service) (left : Option Task)
      (hleft : GoesOn [] left) : Turn other (left.toList ++ s.tasks) (s.last other)
        (s.current other) (s.latest other) := by
    refine (h.turns other).goOn hleft Iff.rfl (fun q => ?_) fun q => ?_
    · simp [Task.compares]
    · simp [Task.numbers]
  by_cases hany : ∃ sub ∈ s.subscribers, Subscribers.holds sid s.now sub = true
  · obtain ⟨sub, hsub, hholds⟩ := hany
    have hhands := (@hands_numberFor s service p sid hbooks sub hsub hholds).retask
      (.numberingFor service sid p :: s.tasks) ((s.numberFor service sid p).2.toList ++ s.tasks)
    have hresult := @numberFor_some s service p sid hbooks sub hsub hholds
    have hleft : GoesOn [] (s.numberFor service sid p).2 := by
      rw [hresult]
      refine ⟨by simp [Task.toRead], fun t ht => ?_⟩
      obtain rfl : Task.deliveringTo sid sub.callbacks = t := Option.mem_some_iff.mp ht
      exact ⟨rfl, rfl, rfl⟩
    have hpublished : (s.numberFor service sid p).1.published = s.published := by rw [hresult]
    have hrenderer : (s.numberFor service sid p).1.renderer = s.renderer := by rw [hresult]
    have hopening (service' : EventedService) (sid' : String) :
        Opening ((s.numberFor service sid p).2.toList ++ s.tasks) service' sid' ↔
          Opening s.tasks service' sid' := by
      rw [mem_filterMap_opening, mem_filterMap_opening, hleft.opening]
    have hunheard (sub : Subscription) (hsub : sub ∈ s.subscribers)
        (hholds : Subscribers.holds sid s.now sub = true) : s.handedTo sub.sid = [] := by
      rw [(holds_sid hholds).1]
      exact h.openings.unopened service sid (opening_cons.mpr (.inl rfl))
    have hserved (sub : Subscription) (hsub : sub ∈ s.subscribers)
        (hholds : Subscribers.holds sid s.now sub = true) : service = sub.service :=
      h.openings.served sub hsub service (opening_cons.mpr (.inl (by
        rw [(holds_sid hholds).1]
        rfl)))
    refine ⟨h.books.hands hhands, h.openings.hands h.books hhands
        (fun service' sid' ho => opening_cons.mpr (.inr ((hopening _ _).mp ho)))
        (fun sub hsub hlive ho => ?_) ?_ (fun sub hsub hholds service' ho => ?_)
        (fun sub hsub hholds => ?_), fun other => ?_,
      hhands.changes h.changes (fun sub hsub hholds e he => ?_), ?_⟩
    · rcases opening_cons.mp ho with ho | ho
      · have hsid : sid = sub.sid := (Prod.mk.inj (Option.some.inj ho)).2
        exact .inr (by rw [Subscribers.holds, hsid, beq_self_eq_true, hlive]; rfl)
      · exact .inl ((hopening _ _).mpr ho)
    · rw [hleft.opening]
      exact honce.2
    · rw [(holds_sid hholds).1] at ho
      exact hclosed service' ((hopening _ _).mp ho)
    · have hseq : sub.seq = 0 := by
        rw [hbooks.next sub hsub, hunheard sub hsub hholds]
        rfl
      exact ⟨fun _ => rfl, fun _ => hseq⟩
    · change Turn other _ ((s.numberFor service sid p).1.published.lookup other)
        (other.properties (s.numberFor service sid p).1.renderer) _
      rw [hpublished, hrenderer]
      by_cases hother : other = service
      · subst hother
        have hafter := (h.turns other).numberFor hturn fun e he => by
          rcases hhands.latest h.books he with he | ⟨sub, -, -, -, heq⟩
          · exact .inl he
          · rw [heq]
            exact .inr ⟨rfl, rfl⟩
        refine hafter.congr ?_ (fun _ => hleft.compares) (fun _ => hleft.numbers)
          hleft.numberers.le fun _ _ => hleft.initial
        rw [hleft.toRead]
        simp
      · refine (hswap other hother _ hleft).fewer fun e he => ?_
        rcases hhands.latest h.books he with he | ⟨sub, hsub, hservice, hholds, -⟩
        · exact he
        · exact absurd (hservice.symm.trans (hserved sub hsub hholds).symm) hother
    · have hnone : (s.handedTo sub.sid).getLast? = some e := he
      rw [hunheard sub hsub hholds] at hnone
      cases hnone
    · rw [hrenderer]
      exact h.stored
  · have hnone : ∀ sub ∈ s.subscribers, Subscribers.holds sid s.now sub = false := fun sub hsub =>
      Bool.eq_false_iff.mpr fun hholds => hany ⟨sub, hsub, hholds⟩
    rw [numberFor_none hnone]
    have hless (service' : EventedService) (sid' : String) (ho : Opening s.tasks service' sid') :
        Opening (.numberingFor service sid p :: s.tasks) service' sid' :=
      opening_cons.mpr (.inr ho)
    refine ⟨hbooks, ⟨?_, ?_, honce.2, ?_, ?_, h.openings.initial⟩, fun other => ?_, h.changes,
      h.stored⟩
    · exact fun service' sid' ho => h.openings.known service' sid' (hless service' sid' ho)
    · exact fun sub hsub service' ho => h.openings.served sub hsub service' (hless _ _ ho)
    · exact fun service' sid' ho => h.openings.unopened service' sid' (hless service' sid' ho)
    · intro sub hsub hlive
      refine (h.openings.opened sub hsub hlive).imp (fun ho => ?_) id
      rcases opening_cons.mp ho with ho | ho
      · have hsid : sid = sub.sid := (Prod.mk.inj (Option.some.inj ho)).2
        have hholds : Subscribers.holds sid s.now sub = true := by
          rw [Subscribers.holds, hsid, beq_self_eq_true, hlive]
          rfl
        exact absurd ⟨sub, hsub, hholds⟩ hany
      · exact ho
    · by_cases hother : other = service
      · subst hother
        exact (h.turns other).numberFor hturn fun e he => .inl he
      · exact hswap other hother none ⟨by simp, by simp⟩

/-- A delivery changes nothing but whose failures are counted. -/
theorem send_kept {task : Task} {left : Option Task} {rest : List EventedService}
    (h : Kept media { s with tasks := task :: s.tasks }) (hread : task.toRead = rest)
    (hidle : task.compares = none ∧ task.numbers = none ∧ task.opening = none)
    (hleft : GoesOn rest left) (sid : String) (callbacks : List String) (answers : String → Bool) :
    Kept media { s.send sid callbacks answers with tasks := left.toList ++ s.tasks } := by
  have hafter : Kept media { s with tasks := left.toList ++ s.tasks } := by
    refine h.redo ?_ (fun service => ?_) h.stored
    · rw [hleft.opening, filterMap_cons_none hidle.2.2]
    · refine (h.turns service).goOn hleft (by rw [hread]) (fun p => ?_) fun p => ?_
      · simp [hidle.1]
      · simp [hidle.2.1]
  exact hafter.trims ((Trims.send (h.books.retask s.tasks) sid callbacks answers).retask _ _)
    rfl rfl rfl

/-! ## Steps and runs -/

/-- What a task of the table does next, the other tasks being `s.tasks`. -/
theorem advance_kept {task : Task} (h : Kept media { s with tasks := task :: s.tasks })
    (hturn : ({ s with tasks := task :: s.tasks } : Service).InTurn task)
    (answers : String → Bool) : Kept media { (s.advance answers task).1 with
      tasks := (s.advance answers task).2.toList ++ s.tasks } := by
  cases task with
  | reading service rest => exact reading_kept h hturn
  | comparing service p rest => exact comparing_kept h
  | numbering service p rest => exact numbering_kept h hturn
  | delivering batch rest =>
    cases batch with
    | nil =>
      have hleft := goesOn_publishing rest
      refine h.redo (.of_eq hleft.opening) (fun service => ?_) h.stored
      exact (h.turns service).goOn hleft Iff.rfl (fun p => by simp [Task.compares])
        fun p => by simp [Task.numbers]
    | cons entry batch =>
      exact send_kept h rfl ⟨rfl, rfl, rfl⟩ (goesOn_sending batch rest) _ _ answers
  | readingFor service sid => exact readingFor_kept h
  | numberingFor service sid p => exact numberingFor_kept h hturn
  | deliveringTo sid callbacks =>
    exact @send_kept _ _ _ _ none _ h rfl ⟨rfl, rfl, rfl⟩
      ⟨by simp [Task.toRead], by simp⟩ sid callbacks answers

theorem advance_tasks (s : Service) (answers : String → Bool) (task : Task) :
    (s.advance answers task).1.tasks = s.tasks := by
  cases task with
  | reading service rest => rfl
  | comparing service p rest =>
    unfold Service.advance Service.compare
    dsimp only
    split <;> rfl
  | numbering service p rest => rfl
  | delivering batch rest => cases batch <;> rfl
  | readingFor service sid => rfl
  | numberingFor service sid p =>
    unfold Service.advance Service.numberFor
    dsimp only
    split <;> rfl
  | deliveringTo sid callbacks => rfl

theorem inTurn_perm {task : Task} (h : s.InTurn task) (hperm : s.tasks.Perm ts) :
    ({ s with tasks := ts } : Service).InTurn task := by
  have hmem (Q : Task → Prop) : (∃ t ∈ ts, Q t) ↔ ∃ t ∈ s.tasks, Q t :=
    exists_congr fun t => and_congr_left' hperm.mem_iff.symm
  cases task with
  | reading service rest =>
    exact fun p hp => h p (hp.imp (hmem _).mp (hmem _).mp)
  | numbering service p rest =>
    exact fun sub hsub hservice hlive ho => h sub hsub hservice hlive ((hmem _).mp ho)
  | numberingFor service sid p =>
    exact h.imp id fun h => h.imp id fun ⟨q, hq⟩ => ⟨q, (hmem _).mpr hq⟩
  | comparing service p rest | delivering batch rest | readingFor service sid
  | deliveringTo sid callbacks => trivial

theorem work_kept (h : Kept media s) (i : ℕ) (answers : String → Bool)
    (horderly : ∀ task, s.tasks[i]? = some task → s.InTurn task) :
    Kept media (s.work i answers) := by
  unfold Service.work
  split
  · exact h
  · rename_i task htask
    obtain ⟨hi, heq⟩ := List.getElem?_eq_some_iff.mp htask
    have hperm : s.tasks.Perm (task :: s.tasks.eraseIdx i) :=
      heq ▸ (getElem_cons_eraseIdx_perm hi).symm
    have hturn : ({ s with tasks := task :: s.tasks.eraseIdx i } : Service).InTurn task :=
      inTurn_perm (horderly task htask) hperm
    have hafter := @advance_kept _ media (s.without i) task (h.perm hperm) hturn answers
    have hspawn : ((s.without i).advance answers task).1.spawn
        ((s.without i).advance answers task).2 =
        { ((s.without i).advance answers task).1 with
          tasks := s.tasks.eraseIdx i ++ ((s.without i).advance answers task).2.toList } := by
      unfold Service.spawn
      rw [advance_tasks]
      rfl
    dsimp only
    rw [hspawn]
    exact hafter.perm perm_append_comm

/-- **The step lemma**: every move in turn keeps the invariant. -/
theorem step_kept (h : Kept media s) (move : Move P) (horderly : s.Orderly move) :
    Kept media (Service.step media s move) := by
  cases move with
  | passes d => exact h.trims (.passes s d) rfl rfl rfl
  | control kind request fault progress => exact handleControl_kept h kind request fault progress
  | press txn =>
    unfold Service.step Service.issue
    dsimp only
    split
    · exact h
    · rename_i r hr
      obtain ⟨hcurrent, hnext⟩ := Renderer.press_uris hr
      exact h.changed (h.stored.of_uris hcurrent hnext)
  | ended how => exact h.changed (h.stored.of_uris (by cases how <;> rfl) (by cases how <;> rfl))
  | subscribe service callback nt sid minted => exact subscribe_kept h service callback nt sid minted
  | unsubscribe sid =>
    cases sid with
    | none => exact h
    | some sid => exact h.trims (.filter rfl) rfl rfl rfl
  | work i answers => exact work_kept h i answers horderly

/-- **In a run whose publications take turns, subscribers are told everything,
in order.** Every state of such a run ends an orderly run of its own. -/
theorem orderly_told (media : Media P) (now : ℕ) (moves : List (Move P))
    (h : Along (Service.step media) Service.Orderly moves (Service.start now)) :
    Told (moves.foldl (Service.step media) (Service.start now)) :=
  (h.foldl (Kept media) (start_kept now) fun _ move => fun h horderly =>
    step_kept h move horderly).told

end

/-! ## Two publications at a time -/

theorem inTurn_reading {s : Service} {service : EventedService} {rest : List EventedService} :
    s.InTurn (.reading service rest) ↔
      ∀ t ∈ s.tasks, ∀ held ∈ t.compares.toList ++ t.numbers.toList,
        held.1 = service → held.2 = s.current service := by
  constructor
  · rintro h t ht ⟨_, p⟩ hheld rfl
    rcases mem_append.mp hheld with hheld | hheld
    · exact h p (.inl ⟨t, ht, Option.mem_toList.mp hheld⟩)
    · exact h p (.inr ⟨t, ht, Option.mem_toList.mp hheld⟩)
  · rintro h p (⟨t, ht, hheld⟩ | ⟨t, ht, hheld⟩)
    · exact h t ht (service, p) (mem_append_left _ (Option.mem_toList.mpr hheld)) rfl
    · exact h t ht (service, p) (mem_append_right _ (Option.mem_toList.mpr hheld)) rfl

theorem exists_numbers {ts : List Task} {service : EventedService} :
    (∃ q, Numbers ts service q) ↔ ∃ t ∈ ts, t.numbers.map (·.1) = some service := by
  constructor
  · rintro ⟨q, t, ht, hnumbers⟩
    exact ⟨t, ht, by rw [hnumbers]; rfl⟩
  · rintro ⟨t, ht, hnumbers⟩
    obtain ⟨⟨_, q⟩, hheld, rfl⟩ := Option.map_eq_some_iff.mp hnumbers
    exact ⟨q, t, ht, hheld⟩

instance (ts : List Task) (service : EventedService) (sid : String) :
    Decidable (Opening ts service sid) :=
  inferInstanceAs (Decidable (∃ t ∈ ts, t.opening = some (service, sid)))

instance (s : Service) (task : Task) : Decidable (s.InTurn task) :=
  match task with
  | .reading _ _ => decidable_of_iff _ inTurn_reading.symm
  | .numbering service _ _ =>
    inferInstanceAs (Decidable (∀ sub ∈ s.subscribers, sub.service = service →
      sub.live s.now = true → ¬ Opening s.tasks service sub.sid))
  | .numberingFor service _ p =>
    @instDecidableOr _ _ _ (@instDecidableOr _ _ (inferInstanceAs (Decidable
      (s.last service = some p))) (decidable_of_iff _ exists_numbers.symm))
  | .comparing _ _ _ => isTrue trivial
  | .delivering _ _ => isTrue trivial
  | .readingFor _ _ => isTrue trivial
  | .deliveringTo _ _ => isTrue trivial

instance {P : Payloads} (s : Service) (move : Move P) : Decidable (s.Orderly move) :=
  match move with
  | .work i _ =>
    match htask : s.tasks[i]? with
    | none => isTrue fun _ h => absurd (htask.symm.trans h) (Option.some_ne_none _).symm
    | some task =>
      decidable_of_iff (s.InTurn task)
        ⟨fun h _ heq => Option.some.inj (htask.symm.trans heq) ▸ h, fun h => h task htask⟩
  | .passes _ => isTrue trivial
  | .control _ _ _ _ => isTrue trivial
  | .press _ => isTrue trivial
  | .ended _ => isTrue trivial
  | .subscribe _ _ _ _ _ => isTrue trivial
  | .unsubscribe _ => isTrue trivial

/-- Sessions whose media are their own names. -/
def named : Payloads := ⟨String, String, Unit, Unit, Unit, Unit, Unit, Unit, ℕ, Unit, Unit⟩

def namedMedia : Media named := ⟨some, fun _ => none, id, id⟩

def setVolume (percent : String) : Move named :=
  .control .renderingControl
    (.ok ⟨"SetVolume", [("InstanceID", "0"), ("Channel", "Master"), ("DesiredVolume", percent)]⟩)
    none none

def subscribeRendering : Move named :=
  .subscribe .renderingControl (some "<http://10.0.0.5:1/>") (some "upnp:event") none "uuid:a"

/-- The `i`-th task takes its next lock, and every address answers. -/
def next (i : ℕ) : Move named := .work i fun _ => true

/-- The volume is set and published with nothing else in progress. -/
def alone : List (Move named) :=
  [subscribeRendering, next 0, next 0, next 0, setVolume "60", next 0, next 0, next 0, next 0,
    next 0, next 0, next 0]

set_option maxRecDepth 8000 in
theorem orderly_told_alone :
    Along (Service.step namedMedia) Service.Orderly alone (Service.start 0) ∧
      Told (alone.foldl (Service.step namedMedia) (Service.start 0)) :=
  ⟨by decide, orderly_told namedMedia 0 alone (by decide)⟩

/-- The volume is set to 60, and to 70 while the first is read but not
published.  The second is numbered first. -/
def overtaken : List (Move named) :=
  [subscribeRendering, next 0, next 0, next 0, setVolume "60", next 0, next 0, next 0, next 0,
    setVolume "70", next 1, next 1, next 1, next 1, next 1, next 1, next 0, next 0, next 0]

def overtakenEnd : Service := overtaken.foldl (Service.step namedMedia) (Service.start 0)

set_option maxRecDepth 8000 in
theorem overtakenEnd_subscribers :
    overtakenEnd.tasks = [] ∧ overtakenEnd.now = 0 ∧ overtakenEnd.subscribers =
      [⟨"uuid:a", .renderingControl, ["http://10.0.0.5:1/"], 3, subscriptionTime, 0⟩] := by
  decide

set_option maxRecDepth 8000 in
theorem overtakenEnd_properties : (overtakenEnd.handedTo "uuid:a").getLast?.map (·.properties) ≠
      some (overtakenEnd.current .renderingControl) := by
  decide

/-- **The renderer is at 70, and its subscriber was told 60 last.** -/
theorem overtaken_told : ¬ ∀ moves : List (Move named),
      Told (moves.foldl (Service.step namedMedia) (Service.start 0)) := by
  intro h
  obtain ⟨hrest, hnow, hsubs⟩ := overtakenEnd_subscribers
  have hlive (sub : Subscription) (hsub : sub.expires = subscriptionTime) :
      sub.live overtakenEnd.now = true := by
    rw [hnow, Subscription.live, hsub]
    rfl
  obtain ⟨e, he, hproperties⟩ := (h overtaken).current hrest _
    (hsubs.symm ▸ mem_singleton_self _) (hlive _ rfl)
  refine overtakenEnd_properties ?_
  change (overtakenEnd.handedTo "uuid:a").getLast? = some e at he
  rw [he]
  exact congrArg some hproperties

end Castaway.Dlna
