import Castaway.Dlna.Renderer
import Castaway.Lib.Runs

/-!
# What the transport says and what is played

A run of AVTransport actions and of reports that the item has ended, watched by
somebody who remembers the last `Play` event (`Watched`).  `avTransport_moved`
says what one action does to the transport, `Settled` is what every move keeps,
and `plays_iff` is about runs.

The renderer is put wrong in two ways.  `Play` is executed while playing, where
it is not offered.  And a URI set while paused is shown at once, but the next
`Play` resumes what was paused.
-/

namespace Castaway.Dlna

open Castaway.Core (ControlTxn Payloads PlaybackEnd SessionEvent)

variable {P : Payloads} {media : Media P} {r r' : Renderer} {action : SoapAction}

/-! ## Runs -/

/-- The request of a `Play` event. -/
def playOf : SessionEvent P → Option P.MediaRequest
  | .play request _ => some request
  | _ => none

/-- The last `Play` event of an answer. -/
def lastPlay : Answer P → Option P.MediaRequest
  | .ok outcome => (outcome.events.filterMap playOf).getLast?
  | .error _ => none

inductive TransportMove
  | action (action : SoapAction)
  | ended (outcome : PlaybackEnd)

/-- A renderer, the last `Play` event it has emitted, and the URI that was set
when playback was paused. -/
structure Watched (P : Payloads) where
  renderer : Renderer := {}
  played : Option P.MediaRequest := none
  pausedOn : Option String := none

/-- Only an item that is playing or paused is reported to have ended. -/
def Watched.move (media : Media P) (w : Watched P) : TransportMove → Watched P
  | .action action =>
    let (r, answer) := w.renderer.avTransport media action
    { renderer := r
      played := (lastPlay answer).or w.played
      pausedOn :=
        if r.state = .pausedPlayback ∧ w.renderer.state ≠ .pausedPlayback then
          w.renderer.currentUri
        else w.pausedOn }
  | .ended outcome =>
    if w.renderer.state = .playing ∨ w.renderer.state = .pausedPlayback then
      { w with renderer := w.renderer.mediaEnded outcome }
    else w

/-! ## What is asked of a run -/

def transportVerbs : List String := ["Pause", "Stop", "Seek", "Play", "Next"]

def SoapAction.Valid (action : SoapAction) : Prop :=
  action.requireInstanceZero = .ok () ∧
    (action.name = "Seek" →
      (action.arg "Unit").getD "REL_TIME" ∈ ["REL_TIME", "ABS_TIME"] ∧
        ∃ target, action.require "Target" = .ok target ∧ (parseUpnpTime target).isSome)

/-- The state is one in which what is shown is what is played. -/
structure Watched.Sound (media : Media P) (w : Watched P) : Prop where
  set : w.renderer.currentUri.isSome ↔ w.renderer.state ≠ .noMediaPresent
  stored : w.renderer.Stored media
  playing : w.renderer.state = .playing → w.played = w.renderer.currentUri.bind media.request

/-- A refused action changes nothing, and one of the transport's verbs is
executed exactly if it is offered. -/
def Watched.Answered (media : Media P) (w : Watched P) (move : TransportMove) : Prop :=
  ∀ action, move = .action action →
    (∀ e, (w.renderer.avTransport media action).2 = .error e →
      (w.renderer.avTransport media action).1 = w.renderer) ∧
    (action.Valid → action.name ∈ transportVerbs →
      ((w.renderer.avTransport media action).2.isOk ↔ action.name ∈ w.renderer.actions))

/-- `Play` is not pressed while playing, and not while paused on something other
than what is set now. -/
def Watched.Careful (media : Media P) (w : Watched P) (move : TransportMove) : Prop :=
  ∀ action, move = .action action → action.name = "Play" → action.requireInstanceZero = .ok () →
    w.renderer.state ≠ .playing ∧
      (w.renderer.state = .pausedPlayback →
        w.renderer.currentUri.bind media.request = w.pausedOn.bind media.request)

/-! ## What one action does to the transport -/

/-- What an action makes of the item and of the state, and the `Play` event it
emits. -/
inductive Moved (media : Media P) (r : Renderer) (action : SoapAction) (r' : Renderer) :
    Option P.MediaRequest → Prop
  | kept (hcurrent : r'.currentUri = r.currentUri) (hstate : r'.state = r.state) :
      Moved media r action r' none
  | set (hplaying : r.state ≠ .playing) (hcurrent : r'.currentUri.isSome)
      (hstate : r'.state = if r.state = .noMediaPresent then .stopped else r.state) :
      Moved media r action r' none
  | started (uri : String) (source : P.MediaRequest) (hsource : media.request uri = some source)
      (hcurrent : r'.currentUri = some uri) (hstate : r'.state = .playing) :
      Moved media r action r' (some source)
  | resumed (hname : action.name = "Play") (hinstance : action.requireInstanceZero = .ok ())
      (hpaused : r.state = .pausedPlayback) (hcurrent : r'.currentUri = r.currentUri)
      (hstate : r'.state = .playing) : Moved media r action r' none
  | paused (hplaying : r.state = .playing) (hcurrent : r'.currentUri = r.currentUri)
      (hstate : r'.state = .pausedPlayback) : Moved media r action r' none
  | stopped (hmedia : r.state ≠ .noMediaPresent) (hcurrent : r'.currentUri = r.currentUri)
      (hstate : r'.state = .stopped) : Moved media r action r' none

namespace Renderer

theorem next_mem_actions : "Next" ∈ r.actions ↔ r.nextUri.isSome := by
  unfold actions
  cases r.state <;> cases r.nextUri <;> simp

theorem play_mem_actions : "Play" ∈ r.actions ↔ r.state ≠ .noMediaPresent ∧ r.state ≠ .playing := by
  unfold actions
  cases r.state <;> cases r.nextUri <;> simp

theorem pause_mem_actions : "Pause" ∈ r.actions ↔ r.state = .playing := by
  unfold actions
  cases r.state <;> cases r.nextUri <;> simp

theorem stop_mem_actions : "Stop" ∈ r.actions ↔ r.state ≠ .noMediaPresent := by
  unfold actions
  cases r.state <;> cases r.nextUri <;> simp

theorem requireAction_eq (verb : String) :
    r.requireAction verb =
      if verb ∈ r.actions then .ok () else .error (.transitionNotAvailable verb) := rfl

/-- Starting an item emits its `Play` event, and no other. -/
theorem lastPlay_started {uri : String} {source : P.MediaRequest}
    (hsource : media.request uri = some source) :
    lastPlay (r.started media uri).2 = some source := by
  unfold started start
  rw [hsource]
  cases media.track r.currentUriMetadata with
  | none | some card => rfl

theorem started_moved {uri : String} (hcurrent : r'.currentUri = some uri)
    (hstate : r'.state = .playing) (huri : (media.request uri).isSome) :
    Moved media r action (r'.started media uri).1 (lastPlay (r'.started media uri).2) := by
  obtain ⟨source, hsource⟩ := Option.isSome_iff_exists.mp huri
  rw [lastPlay_started hsource, started_fst]
  exact .started uri source hsource hcurrent hstate

theorem setAvTransportUri_moved : Moved media r action (r.setAvTransportUri media action).1
      (lastPlay (r.setAvTransportUri media action).2) := by
  unfold setAvTransportUri
  cases huri : action.require "CurrentURI" with
  | error e => exact .kept rfl rfl
  | ok uri =>
    dsimp only
    by_cases hrequest : (media.request uri).isNone
    · rw [if_pos hrequest]
      exact .kept rfl rfl
    · rw [if_neg hrequest]
      have hsome : (media.request uri).isSome := by
        simpa [Option.isSome_iff_ne_none] using hrequest
      cases hstate : r.state with
      | playing => exact started_moved rfl rfl hsome
      | noMediaPresent | stopped | pausedPlayback | transitioning =>
        exact .set (by simp [hstate]) rfl (by simp [hstate])

theorem setNextAvTransportUri_moved : Moved media r action (r.setNextAvTransportUri media action).1
      (lastPlay (r.setNextAvTransportUri media action).2) := by
  unfold setNextAvTransportUri
  cases huri : action.require "NextURI" with
  | error e => exact .kept rfl rfl
  | ok uri =>
    dsimp only
    split
    · exact .kept rfl rfl
    · split
      · exact .kept rfl rfl
      · exact .kept rfl rfl

theorem play_moved (h : r.Stored media) (hname : action.name = "Play")
    (hinstance : action.requireInstanceZero = .ok ()) :
    Moved media r action (r.play media).1 (lastPlay (r.play media).2) := by
  unfold play
  cases huri : r.currentUri with
  | none => exact .kept rfl rfl
  | some uri =>
    dsimp only
    by_cases hpaused : r.state = .pausedPlayback
    · rw [if_pos hpaused]
      exact .resumed hname hinstance hpaused huri.symm rfl
    · rw [if_neg hpaused]
      exact started_moved rfl rfl (h.current uri huri)

theorem pause_moved :
    Moved media r action (r.pause (P := P)).1 (lastPlay (r.pause (P := P)).2) := by
  unfold pause
  rw [requireAction_eq]
  by_cases hmem : "Pause" ∈ r.actions
  · rw [if_pos hmem]
    exact .paused (pause_mem_actions.mp hmem) rfl rfl
  · rw [if_neg hmem]
    exact .kept rfl rfl

theorem stop_moved : Moved media r action (r.stop (P := P)).1 (lastPlay (r.stop (P := P)).2) := by
  unfold stop
  rw [requireAction_eq]
  by_cases hmem : "Stop" ∈ r.actions
  · rw [if_pos hmem]
    exact .stopped (stop_mem_actions.mp hmem) rfl rfl
  · rw [if_neg hmem]
    exact .kept rfl rfl

theorem next_moved (h : r.Stored media) :
    Moved media r action (r.next media).1 (lastPlay (r.next media).2) := by
  unfold next
  cases huri : r.nextUri with
  | none => exact .kept rfl rfl
  | some uri => exact started_moved rfl rfl (h.next uri huri)

theorem lastPlay_seek : lastPlay (r.seek (P := P) action) = none := by
  unfold seek
  dsimp only
  split
  · rfl
  · split
    · rfl
    · split
      · rfl
      · split <;> rfl

theorem lastPlay_askTransport : lastPlay (r.askTransport (P := P) action) = none := by
  unfold askTransport
  split
  all_goals first | rfl | (split <;> rfl)

/-- **What one action does to the transport.** -/
theorem avTransport_moved (h : r.Stored media) : Moved media r action (r.avTransport media action).1
      (lastPlay (r.avTransport media action).2) := by
  unfold avTransport
  cases hinstance : action.requireInstanceZero with
  | error e => exact .kept rfl rfl
  | ok _ =>
    dsimp only
    split
    · exact setAvTransportUri_moved
    · exact setNextAvTransportUri_moved
    · rename_i hname
      exact play_moved h hname hinstance
    · exact pause_moved
    · exact stop_moved
    · rw [lastPlay_seek]
      exact .kept rfl rfl
    · exact next_moved h
    · rw [lastPlay_askTransport]
      exact .kept rfl rfl

/-! ## What is offered is executed -/

theorem pause_isOk : (r.pause (P := P)).2.isOk ↔ "Pause" ∈ r.actions := by
  unfold pause
  rw [requireAction_eq]
  by_cases hmem : "Pause" ∈ r.actions
  · simp [hmem, Except.isOk, Except.toBool]
  · simp [hmem, Except.isOk, Except.toBool]

theorem stop_isOk : (r.stop (P := P)).2.isOk ↔ "Stop" ∈ r.actions := by
  unfold stop
  rw [requireAction_eq]
  by_cases hmem : "Stop" ∈ r.actions
  · simp [hmem, Except.isOk, Except.toBool]
  · simp [hmem, Except.isOk, Except.toBool]

theorem started_isOk {uri : String} (huri : (media.request uri).isSome) :
    (r.started media uri).2.isOk := by
  obtain ⟨source, hsource⟩ := Option.isSome_iff_exists.mp huri
  unfold started start
  rw [hsource]
  rfl

theorem next_isOk (h : r.Stored media) : (r.next media).2.isOk ↔ "Next" ∈ r.actions := by
  rw [next_mem_actions]
  unfold next
  cases huri : r.nextUri with
  | none => simp [Except.isOk, Except.toBool]
  | some uri => simpa using started_isOk (h.next uri huri)

/-- `Play` asks only whether something is set. -/
theorem play_isOk (h : r.Stored media) : (r.play media).2.isOk ↔ r.currentUri.isSome := by
  unfold play
  cases huri : r.currentUri with
  | none => simp [Except.isOk, Except.toBool]
  | some uri =>
    dsimp only
    by_cases hpaused : r.state = .pausedPlayback
    · simp [hpaused, Except.isOk, Except.toBool]
    · rw [if_neg hpaused]
      simpa using started_isOk (h.current uri huri)

theorem seek_isOk (hvalid : action.Valid) (hname : action.name = "Seek") :
    (r.seek (P := P) action).isOk ↔ "Seek" ∈ r.actions := by
  obtain ⟨hunit, target, htarget, hparse⟩ := hvalid.2 hname
  obtain ⟨position, hposition⟩ := Option.isSome_iff_exists.mp hparse
  have hmode : ¬ ((action.arg "Unit").getD "REL_TIME" ≠ "REL_TIME" ∧
      (action.arg "Unit").getD "REL_TIME" ≠ "ABS_TIME") := by
    simpa [or_iff_not_imp_left] using hunit
  unfold seek
  dsimp only
  rw [if_neg hmode, htarget]
  dsimp only
  rw [hposition, requireAction_eq]
  by_cases hmem : "Seek" ∈ r.actions
  · simp [hmem, Except.isOk, Except.toBool]
  · simp [hmem, Except.isOk, Except.toBool]

/-- **Short of a `Play` while playing, what is offered is what is executed.** -/
theorem offered_iff (h : r.Stored media) (hset : r.currentUri.isSome ↔ r.state ≠ .noMediaPresent)
    (hvalid : action.Valid) (hverb : action.name ∈ transportVerbs)
    (hplay : action.name = "Play" → r.state ≠ .playing) :
    (r.avTransport media action).2.isOk ↔ action.name ∈ r.actions := by
  have hverbs : action.name = "Pause" ∨ action.name = "Stop" ∨ action.name = "Seek" ∨
      action.name = "Play" ∨ action.name = "Next" := by
    simpa [transportVerbs] using hverb
  rcases hverbs with hname | hname | hname | hname | hname
  · simpa [avTransport, hvalid.1, hname] using pause_isOk (r := r)
  · simpa [avTransport, hvalid.1, hname] using stop_isOk (r := r)
  · simpa [avTransport, hvalid.1, hname] using seek_isOk (r := r) hvalid hname
  · have hstate := hplay hname
    simp [avTransport, hvalid.1, hname, play_isOk h, play_mem_actions, hset, hstate]
  · simpa [avTransport, hvalid.1, hname] using next_isOk h

/-- `Play` while playing is executed, and is not offered. -/
theorem play_while_playing (h : r.Stored media) (hcurrent : r.currentUri.isSome)
    (hplaying : r.state = .playing) (hname : action.name = "Play")
    (hinstance : action.requireInstanceZero = .ok ()) :
    (r.avTransport media action).2.isOk ∧ action.name ∉ r.actions := by
  refine ⟨?_, ?_⟩
  · simpa [avTransport, hinstance, hname] using (play_isOk h).mpr hcurrent
  · rw [hname, play_mem_actions]
    exact fun hmem => hmem.2 hplaying

/-- `Play` while paused resumes, whatever is set by then. -/
theorem play_while_paused (hcurrent : r.currentUri.isSome) (hpaused : r.state = .pausedPlayback)
    (hname : action.name = "Play") (hinstance : action.requireInstanceZero = .ok ()) :
    (r.avTransport media action).1.state = .playing ∧
      (r.avTransport media action).1.currentUri = r.currentUri ∧
      lastPlay (r.avTransport media action).2 = none := by
  obtain ⟨uri, huri⟩ := Option.isSome_iff_exists.mp hcurrent
  have hplay : r.avTransport media action =
      ({ r with state := .playing, status := .ok }, .ok (.withEvent .play)) := by
    simp [avTransport, hinstance, hname, play, huri, hpaused]
  rw [hplay]
  exact ⟨rfl, rfl, rfl⟩

end Renderer

/-! ## Careful runs -/

namespace Watched

variable {w : Watched P} {move : TransportMove}

/-- What every careful move keeps. -/
structure Settled (media : Media P) (w : Watched P) : Prop extends w.Sound media where
  paused : w.renderer.state = .pausedPlayback → w.played = w.pausedOn.bind media.request

theorem settled_start : Settled media {} where
  set := by simp
  stored := ⟨fun _ h => (by cases h), fun _ h => (by cases h)⟩
  playing := fun h => by cases h
  paused := fun h => by cases h

/-- The watched renderer after an action that makes `r'` of it and emits
`played`. -/
def after (w : Watched P) (r' : Renderer) (played : Option P.MediaRequest) : Watched P where
  renderer := r'
  played := played.or w.played
  pausedOn :=
    if r'.state = .pausedPlayback ∧ w.renderer.state ≠ .pausedPlayback then w.renderer.currentUri
    else w.pausedOn

theorem move_action : w.move media (.action action) =
    w.after (w.renderer.avTransport media action).1
      (lastPlay (w.renderer.avTransport media action).2) := rfl

theorem settled_after_kept (h : Settled media w) (hstored : r'.Stored media)
    (hcurrent : r'.currentUri = w.renderer.currentUri) (hstate : r'.state = w.renderer.state) :
    Settled media (w.after r' none) where
  set := by simpa [after, hcurrent, hstate] using h.set
  stored := hstored
  playing := by simpa [after, hcurrent, hstate] using h.playing
  paused := by
    intro hpaused
    have hbefore : w.renderer.state = .pausedPlayback := hstate ▸ hpaused
    simpa [after, hbefore] using h.paused hbefore

theorem Settled.after {played : Option P.MediaRequest} (h : Settled media w)
    (hmoved : Moved media w.renderer action r' played) (hstored : r'.Stored media)
    (hcareful : w.Careful media (.action action)) : Settled media (w.after r' played) := by
  cases hmoved with
  | kept hcurrent hstate => exact settled_after_kept h hstored hcurrent hstate
  | set hplaying hcurrent hstate =>
    -- nothing is put on, and the state is neither playing nor newly paused
    have hnot : r'.state ≠ .playing ∧ r'.state ≠ .noMediaPresent := by
      rw [hstate]
      by_cases hnone : w.renderer.state = .noMediaPresent
      · simp [hnone]
      · simp [hnone, hplaying]
    have hpausedIff (hpaused : r'.state = .pausedPlayback) :
        w.renderer.state = .pausedPlayback := by
      by_cases hnone : w.renderer.state = .noMediaPresent
      · rw [hstate, if_pos hnone] at hpaused
        cases hpaused
      · rwa [hstate, if_neg hnone] at hpaused
    refine ⟨⟨?_, hstored, fun hplays => absurd hplays hnot.1⟩, fun hpaused => ?_⟩
    · simp [Watched.after, hcurrent, hnot.2]
    · have hbefore := hpausedIff hpaused
      simpa [Watched.after, hbefore] using h.paused hbefore
  | started uri source hsource hcurrent hstate =>
    refine ⟨⟨?_, hstored, ?_⟩, ?_⟩
    · simp [Watched.after, hcurrent, hstate]
    · simp [Watched.after, hcurrent, hsource]
    · simp [Watched.after, hstate]
  | resumed hname hinstance hpaused hcurrent hstate =>
    have hsame := (hcareful action rfl hname hinstance).2 hpaused
    have hmedia : w.renderer.currentUri.isSome := h.set.mpr (by simp [hpaused])
    refine ⟨⟨?_, hstored, ?_⟩, ?_⟩
    · simp [Watched.after, hcurrent, hstate, hmedia]
    · simp [Watched.after, hcurrent, hsame, h.paused hpaused]
    · simp [Watched.after, hstate]
  | paused hplaying hcurrent hstate =>
    have hmedia : w.renderer.currentUri.isSome := h.set.mpr (by simp [hplaying])
    refine ⟨⟨?_, hstored, ?_⟩, ?_⟩
    · simp [Watched.after, hcurrent, hstate, hmedia]
    · simp [Watched.after, hstate]
    · simp [Watched.after, hstate, hplaying, h.playing hplaying]
  | stopped hmedia hcurrent hstate =>
    have hcurrent' : w.renderer.currentUri.isSome := h.set.mpr hmedia
    refine ⟨⟨?_, hstored, ?_⟩, ?_⟩
    · simp [Watched.after, hcurrent, hstate, hcurrent']
    · simp [Watched.after, hstate]
    · simp [Watched.after, hstate]

theorem Settled.ended (h : Settled media w) (outcome : PlaybackEnd) :
    Settled media (w.move media (.ended outcome)) := by
  by_cases hon : w.renderer.state = .playing ∨ w.renderer.state = .pausedPlayback
  · have hmedia : w.renderer.currentUri.isSome := by
      refine h.set.mpr ?_
      rcases hon with hstate | hstate <;> simp [hstate]
    have hcurrent : (w.renderer.mediaEnded outcome).currentUri = w.renderer.currentUri := by
      cases outcome <;> rfl
    have hnext : (w.renderer.mediaEnded outcome).nextUri = w.renderer.nextUri := by
      cases outcome <;> rfl
    have hstate : (w.renderer.mediaEnded outcome).state = .stopped := by
      cases outcome <;> rfl
    have hmove : w.move media (.ended outcome) =
        { w with renderer := w.renderer.mediaEnded outcome } := if_pos hon
    rw [hmove]
    refine ⟨⟨?_, h.stored.of_uris hcurrent hnext, ?_⟩, ?_⟩
    · simp [hcurrent, hstate, hmedia]
    · simp [hstate]
    · simp [hstate]
  · have hmove : w.move media (.ended outcome) = w := if_neg hon
    rwa [hmove]

theorem settled_move (h : Settled media w) (hcareful : w.Careful media move) :
    Settled media (w.move media move) := by
  cases move with
  | ended outcome => exact h.ended outcome
  | action action =>
    rw [move_action]
    exact h.after (w.renderer.avTransport_moved h.stored) (w.renderer.avTransport_stored h.stored)
      hcareful

/-- `Play` while playing is executed though it is not offered, and `Play` while
paused on something else leaves that playing. -/
theorem careful_of_right (h : Settled media w) (hsound : (w.move media move).Sound media)
    (hanswered : w.Answered media move) : w.Careful media move := by
  rintro action rfl hname hinstance
  have hvalid : action.Valid :=
    ⟨hinstance, fun hseek => absurd (hname.symm.trans hseek) (by decide)⟩
  refine ⟨fun hplaying => ?_, fun hpaused => ?_⟩
  · have hcurrent : w.renderer.currentUri.isSome := h.set.mpr (by simp [hplaying])
    obtain ⟨hok, hoffered⟩ :=
      Renderer.play_while_playing h.stored hcurrent hplaying hname hinstance
    refine hoffered (((hanswered action rfl).2 hvalid ?_).mp hok)
    simp [hname, transportVerbs]
  · have hcurrent : w.renderer.currentUri.isSome := h.set.mpr (by simp [hpaused])
    obtain ⟨hstate, hkept, hnone⟩ :=
      @Renderer.play_while_paused _ media _ _ hcurrent hpaused hname hinstance
    rw [move_action] at hsound
    have hplayed : w.played = w.renderer.currentUri.bind media.request := by
      simpa [Watched.after, hnone, hkept] using hsound.playing hstate
    rw [← hplayed, h.paused hpaused]

/-- **In a settled state what is left is sound and the answer is right exactly
if the move is careful.** -/
theorem right_iff (h : Settled media w) :
    ((w.move media move).Sound media ∧ w.Answered media move) ↔ w.Careful media move := by
  refine ⟨fun hright => careful_of_right h hright.1 hright.2, fun hcareful => ?_⟩
  refine ⟨(settled_move h hcareful).toSound, ?_⟩
  rintro action rfl
  refine ⟨fun e he => Renderer.avTransport_refused h.stored he, fun hvalid hverb => ?_⟩
  exact Renderer.offered_iff h.stored h.set hvalid hverb
    fun hname => (hcareful action rfl hname hvalid.1).1

end Watched

/-- **The renderer plays what it says exactly in the careful runs**, in every
state and at every action of them. -/
theorem plays_iff (media : Media P) (moves : List TransportMove) :
    ((∀ k ≤ moves.length, ((moves.take k).foldl (Watched.move media) {}).Sound media) ∧
        Along (Watched.move media) (Watched.Answered media) moves {}) ↔
      Along (Watched.move media) (Watched.Careful media) moves {} := by
  have hstart := @Watched.settled_start _ media
  rw [forall_take_iff, and_assoc, and_iff_right hstart.toSound, ← along_and]
  exact along_congr_of_invariant (Watched.Settled media) hstart
    fun w move hw => ⟨Watched.right_iff hw, Watched.settled_move hw⟩

/-! ## A URI set while paused -/

def spelled : Payloads := ⟨String, String, Unit, Unit, Unit, Unit, Unit, Unit, ℕ, Unit, Unit⟩

def spelledMedia : Media spelled := ⟨some, fun _ => none, id, id⟩

def setUri (uri : String) : TransportMove :=
  .action ⟨"SetAVTransportURI", [("InstanceID", "0"), ("CurrentURI", uri)]⟩

def pressPlay : TransportMove := .action ⟨"Play", [("InstanceID", "0"), ("Speed", "1")]⟩

def pressPause : TransportMove := .action ⟨"Pause", [("InstanceID", "0")]⟩

/-- The second item is set while the first is paused, and `Play` is pressed. -/
def switchedWhilePaused : List TransportMove :=
  [setUri "http://h/1.mp4", pressPlay, pressPause, setUri "http://h/2.mp4", pressPlay]

def afterSwitch : Watched spelled := switchedWhilePaused.foldl (Watched.move spelledMedia) {}

/-- **The renderer says the second item is playing, and the last `Play` it
emitted was for the first.** -/
theorem switched_plays_the_first : (afterSwitch.renderer.state = .playing ∧
      afterSwitch.renderer.currentUri = some "http://h/2.mp4" ∧
      afterSwitch.played = some "http://h/1.mp4") ∧ ¬ ∀ moves : List TransportMove,
      (∀ k ≤ moves.length,
        ((moves.take k).foldl (Watched.move spelledMedia) {}).Sound spelledMedia) ∧
      Along (Watched.move spelledMedia) (Watched.Answered spelledMedia) moves {} := by
  have hend : afterSwitch.renderer.state = .playing ∧
      afterSwitch.renderer.currentUri = some "http://h/2.mp4" ∧
      afterSwitch.played = some "http://h/1.mp4" :=
    ⟨by decide, by decide, rfl⟩
  refine ⟨hend, fun hright => ?_⟩
  have hplays := ((hright switchedWhilePaused).1 5 (Nat.le_refl 5)).playing hend.1
  change afterSwitch.played = afterSwitch.renderer.currentUri.bind some at hplays
  rw [hend.2.1, hend.2.2] at hplays
  have hsame : "http://h/1.mp4" = "http://h/2.mp4" := Option.some.inj hplays
  exact absurd hsame (by decide)

end Castaway.Dlna
