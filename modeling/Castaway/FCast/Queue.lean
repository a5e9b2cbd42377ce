import Castaway.FCast.Operations
import Mathlib.Data.List.Induction

/-!
# The queue and its current item

Thirteen operations move an index along a list that they also lengthen and
shorten on either side of it.  `Effect` says what one of them does to the item
that is current: it stays current, or it is started, or nothing is loaded any
more.  By induction the last item handed to the pipeline is the current one.

**The headline result** is `queue_consistent`.
-/

namespace Castaway.FCast

open Castaway.Core (PlaybackEnd)
open List

variable {lib : Libraries} {player player' : Player} {loaded : Loaded} {applied : Applied}

/-- What can be asked of a player. -/
inductive Operation where
  | load (play : PlayMessage)
  | loadV4 (source : LoadSource) (raw : RawPacket)
  | queueInsertV4 (item : V4MediaItem) (position : QueuePosition) (raw : RawPacket)
  | queueRemoveV4 (position : QueuePosition)
  | queueSelectV4 (position : QueuePosition)
  | setPlaylistItem (index : ℕ)
  | step (forward : Bool)
  | pause
  | resume
  | stop
  | seek (target : ℕ)
  | setVolume (volume : Double)
  | setSpeed (speed : Double) (shown : String)
  | mediaEnded (ending : PlaybackEnd)

namespace Player

def done (result : Player × Applied) : Player × Except Fault Applied := (result.1, .ok result.2)

def apply (lib : Libraries) (player : Player) : Operation → Player × Except Fault Applied
  | .load play => player.load lib play
  | .loadV4 source raw => player.loadV4 lib source raw
  | .queueInsertV4 item position raw => player.queueInsertV4 lib item position raw
  | .queueRemoveV4 position => player.queueRemoveV4 position
  | .queueSelectV4 position => player.queueSelectV4 position
  | .setPlaylistItem index => player.setPlaylistItem index
  | .step forward => player.step forward
  | .pause => done player.pause
  | .resume => done player.resume
  | .stop => done player.stop
  | .seek target => done (player.seek target)
  | .setVolume volume => done (player.setVolume volume)
  | .setSpeed speed shown => player.setSpeed speed shown
  | .mediaEnded ending => player.mediaEnded ending

def current? (player : Player) : Option ResolvedItem :=
  player.loaded.bind fun loaded => loaded.queue[loaded.index]?

end Player

def ResolvedItem.handed (item : ResolvedItem) : MediaRequest × Option ℕ :=
  (item.request, item.start)

def played? : SessionEvent → Option (MediaRequest × Option ℕ)
  | .play request start => some (request, start)
  | _ => none

/-- What the last `Play` among some events handed to the pipeline. -/
def lastPlay (events : List SessionEvent) : Option (MediaRequest × Option ℕ) :=
  (events.filterMap played?).getLast?

/-- The receiver says which item it moved to itself. -/
def Announces (updates : List ReceiverUpdate) (position : QueuePosition) : Prop :=
  .queueSelectRelay position true ∈ updates

/-- What an operation that was not refused does. -/
structure Effect (player player' : Player) (applied : Applied) : Prop where
  wellFormed : player'.WellFormed
  current : (applied.events.filterMap played? = [] ∧
      (player'.loaded = none ∨ player'.current? = player.current?)) ∨
    ∃ item, player'.current? = some item ∧
      applied.events.filterMap played? = [item.handed]
  announced : ∀ position, Announces applied.updates position →
    ∃ i loaded, position = .index i ∧ player'.loaded = some loaded ∧ i.toNat = loaded.index

namespace Effect

theorem of_loaded_eq (h : player.WellFormed) (hloaded : player'.loaded = player.loaded)
    (hidle : player.loaded = none → player'.state = .idle)
    (hplays : applied.events.filterMap played? = [])
    (hsilent : ∀ position, ¬ Announces applied.updates position) :
    Effect player player' applied where
  wellFormed := ⟨fun loaded hsome => h.loaded loaded (hloaded ▸ hsome),
    fun hnone => hidle (hloaded ▸ hnone)⟩
  current := .inl ⟨hplays, .inr (by rw [Player.current?, hloaded]; rfl)⟩
  announced := fun position h => absurd h (hsilent position)

theorem refl (h : player.WellFormed) : Effect player player .nothing :=
  of_loaded_eq h rfl h.idle rfl (fun _ h => by cases h)

end Effect

namespace Player

theorem plays_started (player : Player) (loaded : Loaded) (item : ResolvedItem) :
    (player.started loaded item).events.filterMap played? = [item.handed] := by
  rw [started]
  split <;> rfl

theorem silent_started (player : Player) (loaded : Loaded) (item : ResolvedItem)
    (position : QueuePosition) : ¬ Announces (player.started loaded item).updates position := by
  simp [Announces, started]

theorem wellFormed_playing (player : Player) (h : loaded.WellFormed) :
    (player.playing loaded).WellFormed :=
  ⟨fun _ hloaded => Option.some.inj hloaded ▸ h, nofun⟩

theorem current?_playing (player : Player) (h : loaded.WellFormed) :
    (player.playing loaded).current? = some (loaded.current h) :=
  getElem?_eq_getElem h.index_lt

theorem effect_begin (player player₀ : Player) (h : loaded.WellFormed)
    {relayed : List ReceiverUpdate} (hrelayed : ∀ position, ¬ Announces relayed position) :
    ∃ player' applied, player.begin loaded relayed = (player', .ok applied) ∧
      Effect player₀ player' applied := by
  refine ⟨_, _, player.begin_eq h relayed, player.wellFormed_playing h,
    .inr ⟨loaded.current h, player.current?_playing h, ?_⟩, fun position hannounced => ?_⟩
  · rw [filterMap_append, plays_started]
    rfl
  · rcases mem_append.mp hannounced with hfirst | hvolume
    · rcases mem_append.mp hfirst with hrelay | hstarted
      · exact absurd hrelay (hrelayed position)
      · exact absurd hstarted (silent_started _ _ _ position)
    · cases mem_singleton.mp hvolume

/-- A jump starts the item it makes current.  `more` are the updates after it.
-/
theorem effect_jumped (player player₀ : Player) (h : loaded.WellFormed)
    (before more : List ReceiverUpdate) (hbefore : ∀ position, ¬ Announces before position)
    (hmore : ∀ position, Announces more position →
      ∃ i, position = .index i ∧ i.toNat = loaded.index) : Effect player₀ (player.playing loaded)
      ⟨(player.jumped loaded h).events, before ++ (player.jumped loaded h).updates ++ more⟩ where
  wellFormed := player.wellFormed_playing h
  current := .inr ⟨loaded.current h, player.current?_playing h,
    plays_started (player.playing loaded) loaded _⟩
  announced := fun position hannounced => by
    rcases mem_append.mp hannounced with hfirst | hlast
    · rcases mem_append.mp hfirst with hb | hstarted
      · exact absurd hb (hbefore position)
      · exact absurd hstarted (silent_started _ _ _ position)
    · obtain ⟨i, hposition, hi⟩ := hmore position hlast
      exact ⟨i, loaded, hposition, rfl, hi⟩

theorem effect_edited (player : Player) {loaded' : Loaded} (hloaded : player.loaded = some loaded)
    (h : loaded'.WellFormed)
    (hcurrent : loaded'.queue[loaded'.index]? = loaded.queue[loaded.index]?)
    {relay : ReceiverUpdate} (hrelay : ∀ position, relay ≠ .queueSelectRelay position true) :
    Effect player { player with loaded := some loaded' } (player.editing loaded' relay) where
  wellFormed := ⟨fun _ hsome => Option.some.inj hsome ▸ h, nofun⟩
  current := .inl ⟨rfl, .inr (by rw [current?, current?, hloaded]; exact hcurrent)⟩
  announced := fun position hannounced => by
    rcases mem_cons.mp hannounced with hfirst | hlast
    · exact absurd hfirst.symm (hrelay position)
    · cases mem_singleton.mp hlast

/-- The index announced is the index: at most 256 items, so it fits the byte it
is sent in. -/
theorem announces_announcement (h : loaded.WellFormed) (position : QueuePosition)
    (hannounced : Announces (announcement loaded) position) :
    ∃ i, position = .index i ∧ i.toNat = loaded.index := by
  unfold Announces announcement at hannounced
  by_cases hv4 : loaded.v4Queue = true
  · rw [if_pos hv4] at hannounced
    have hposition := mem_singleton.mp hannounced
    injection hposition with hposition
    refine ⟨_, hposition, ?_⟩
    have hcapped := h.capped hv4
    have hlt := h.index_lt
    rw [UInt8.toNat_ofNat']
    omega
  · rw [if_neg hv4] at hannounced
    cases hannounced

/-- A jump by a version 2 or 3 sender is refused, or starts the item it names. -/
theorem effect_setPlaylistItem (h : player.WellFormed) (index : ℕ) :
    (∃ refusal, player.setPlaylistItem index = (player, .error (.refused refusal))) ∨
    ∃ player' applied, player.setPlaylistItem index = (player', .ok applied) ∧
      Effect player player' applied := by
  rcases setPlaylistItem_cases h index with hrefused | ⟨loaded, -, -, -, hwf, hset⟩
  · exact .inl hrefused
  · refine .inr ⟨_, _, hset, ?_⟩
    have heffect := effect_jumped player player hwf [] [] (by simp [Announces])
      (fun position hannounced => by cases hannounced)
    rwa [nil_append, append_nil] at heffect

/-- **One step**: an operation is refused and the player is as it was, or it has
an `Effect`.  It does not panic. -/
theorem apply_cases (lib : Libraries) (h : player.WellFormed) (op : Operation) :
    (∃ refusal, player.apply lib op = (player, .error (.refused refusal))) ∨
    ∃ player' applied, player.apply lib op = (player', .ok applied) ∧
      Effect player player' applied := by
  cases op with
  | load play =>
    rcases player.load_cases lib play with hrefused | ⟨queue, index, isPlaylist, -, hwf, hload⟩
    · exact .inl hrefused
    · rw [apply, hload]
      exact .inr (effect_begin _ player hwf (fun position => by simp [Announces]))
  | loadV4 source raw =>
    rcases player.loadV4_cases lib source raw with hrefused |
      ⟨_, _, _, _, _, _, item, -, -, hwf, hload⟩
    · exact .inl hrefused
    · rw [apply, hload]
      exact .inr (effect_begin _ player hwf (fun position => by simp [Announces]))
  | queueInsertV4 item position raw =>
    rcases queueInsertV4_cases lib h item position raw with hrefused |
      ⟨resolved, loaded, index, -, hloaded, -, hroom, -, hindex, hinsert⟩
    · exact .inl hrefused
    · have hwf := h.loaded loaded hloaded
      exact .inr ⟨_, _, hinsert, effect_edited player hloaded (hwf.inserted hindex hroom resolved)
        (Loaded.inserted_current hwf index resolved) nofun⟩
  | queueRemoveV4 position =>
    rcases queueRemoveV4_cases h position with hrefused |
      ⟨loaded, index, hloaded, -, -, hindex, hother, hremove⟩
    · exact .inl hrefused
    · have hwf := h.loaded loaded hloaded
      exact .inr ⟨_, _, hremove, effect_edited player hloaded (hwf.removed hindex hother)
        (Loaded.removed_current hother) nofun⟩
  | queueSelectV4 position =>
    rcases queueSelectV4_cases h position with hrefused | ⟨loaded, index, -, -, -, hwf, hselect⟩
    · exact .inl hrefused
    · refine .inr ⟨_, _, hselect, effect_jumped player player hwf [] _ (by simp [Announces]) ?_⟩
      intro position hannounced
      cases mem_singleton.mp hannounced
  | setPlaylistItem index => exact effect_setPlaylistItem h index
  | step forward =>
    rcases player.step_cases forward with hrefused | ⟨loaded, index, -, -, -, hstep⟩
    · exact .inl hrefused
    · rw [apply, hstep]
      exact effect_setPlaylistItem h index
  | pause =>
    refine .inr ⟨_, _, rfl, ?_⟩
    unfold pause
    by_cases hstate : player.state ≠ .playing
    · rw [if_pos hstate]
      exact .refl h
    · rw [if_neg hstate]
      exact .of_loaded_eq h rfl (fun hnone => by simp [h.idle hnone] at hstate) rfl
        (fun position => by simp [Announces])
  | resume =>
    refine .inr ⟨_, _, rfl, ?_⟩
    unfold resume
    by_cases hstate : player.state ≠ .paused
    · rw [if_pos hstate]
      exact .refl h
    · rw [if_neg hstate]
      exact .of_loaded_eq h rfl (fun hnone => by simp [h.idle hnone] at hstate) rfl
        (fun position => by simp [Announces])
  | stop =>
    refine .inr ⟨_, _, rfl, ?_⟩
    unfold stop
    split
    · exact .refl h
    · exact ⟨⟨fun _ hsome => (by cases hsome), fun _ => rfl⟩, .inl ⟨rfl, .inl rfl⟩,
        fun position => by simp [Announces]⟩
  | seek target =>
    refine .inr ⟨_, _, rfl, ?_⟩
    unfold seek
    split
    · exact .refl h
    · exact .of_loaded_eq h rfl h.idle rfl (fun position => by simp [Announces])
  | setVolume volume =>
    exact .inr ⟨_, _, rfl, .of_loaded_eq h rfl h.idle rfl
      (fun position => by simp [Announces, Player.setVolume])⟩
  | setSpeed speed shown =>
    rw [apply, setSpeed]
    split
    · exact .inr ⟨_, _, rfl, .refl h⟩
    · exact .inl ⟨_, rfl⟩
  | mediaEnded ending =>
    rcases mediaEnded_cases h ending with ⟨-, hended⟩ |
      ⟨loaded, hwf, hloaded, ⟨hnext, hended⟩ | hended⟩
    · exact .inr ⟨_, _, hended, .refl h⟩
    · refine .inr ⟨_, _, hended, effect_jumped player player hnext
        [.mediaItem .end (loaded.current hwf).echo] _ (fun position => by simp [Announces])
        (announces_announcement hnext)⟩
    · refine .inr ⟨_, _, hended, .of_loaded_eq h rfl (fun _ => rfl) rfl fun position => ?_⟩
      cases ending <;> simp [Announces, stopped, endUpdates]

end Player

/-! ## Runs -/

/-- A player and all the events it has emitted. -/
structure PlayerRun where
  player : Player
  events : List SessionEvent

namespace PlayerRun

def new : PlayerRun := ⟨.new, []⟩

def step (lib : Libraries) (run : PlayerRun) (op : Operation) : PlayerRun :=
  match run.player.apply lib op with
  | (player, .ok applied) => ⟨player, run.events ++ applied.events⟩
  | (player, .error _) => ⟨player, run.events⟩

def run (lib : Libraries) (ops : List Operation) : PlayerRun := ops.foldl (step lib) new

/-- What holds after any operations. -/
structure Consistent (run : PlayerRun) : Prop where
  wellFormed : run.player.WellFormed
  lastPlay : ∀ item, run.player.current? = some item → lastPlay run.events = some item.handed

theorem Consistent.step {run : PlayerRun} (h : run.Consistent) (op : Operation) :
    (run.step lib op).Consistent := by
  unfold PlayerRun.step
  rcases Player.apply_cases lib h.wellFormed op with ⟨refusal, hrefused⟩ |
    ⟨player', applied, happlied, heffect⟩
  · rw [hrefused]
    exact h
  · rw [happlied]
    refine ⟨heffect.wellFormed, fun item hitem => ?_⟩
    rw [FCast.lastPlay, filterMap_append]
    rcases heffect.current with ⟨hplays, hnone | hsame⟩ | ⟨started, hstarted, hplays⟩
    · rw [Player.current?, hnone] at hitem
      cases hitem
    · rw [hplays, append_nil]
      exact h.lastPlay item (hsame ▸ hitem)
    · rw [hplays, getLast?_concat, Option.some.inj (hstarted.symm.trans hitem)]

theorem consistent_run (lib : Libraries) (ops : List Operation) : (run lib ops).Consistent := by
  induction ops using List.reverseRecOn with
  | nil =>
    exact ⟨⟨fun _ hsome => (by cases hsome), fun _ => rfl⟩, fun _ hitem => (by cases hitem)⟩
  | append_singleton ops op ih =>
    rw [run, foldl_concat]
    exact ih.step op

/-- **The queue and its current item stay consistent**, whatever is asked of the
player.  Something loaded is a queue with a current item, of at most 256 when
version 4 senders may change it, and that item is what the last `Play` handed to
the pipeline.  With nothing loaded the player is idle.  The next operation does
not panic; if it is refused, the player is as it was; an index it announces on
its own is the index; and an insertion or a removal changes neither the current
item nor the order of the others. -/
theorem queue_consistent (lib : Libraries) (ops : List Operation) :
    (∀ loaded, (run lib ops).player.loaded = some loaded →
      loaded.index < loaded.queue.length ∧
      (loaded.v4Queue = true → loaded.queue.length ≤ 256) ∧
      ∃ item, loaded.queue[loaded.index]? = some item ∧
        FCast.lastPlay (run lib ops).events = some item.handed) ∧
    ((run lib ops).player.loaded = none → (run lib ops).player.state = .idle) ∧
    ∀ op player' result, (run lib ops).player.apply lib op = (player', result) →
      result ≠ .error .panic ∧
      (∀ refusal, result = .error (.refused refusal) → player' = (run lib ops).player) ∧
      ∀ applied, result = .ok applied →
        (∀ position, Announces applied.updates position →
          ∃ i loaded, position = .index i ∧ player'.loaded = some loaded ∧
            i.toNat = loaded.index) ∧
        (∀ item position raw, op = .queueInsertV4 item position raw →
          ∃ loaded loaded' index inserted, (run lib ops).player.loaded = some loaded ∧
            player'.loaded = some loaded' ∧ index ≤ loaded.queue.length ∧
            loaded'.queue = loaded.queue.insertIdx index inserted ∧
            loaded'.queue[loaded'.index]? = loaded.queue[loaded.index]?) ∧
        ∀ position, op = .queueRemoveV4 position →
          ∃ loaded loaded' index, (run lib ops).player.loaded = some loaded ∧
            player'.loaded = some loaded' ∧ index ≠ loaded.index ∧
            loaded'.queue = loaded.queue.eraseIdx index ∧
            loaded'.queue[loaded'.index]? = loaded.queue[loaded.index]? := by
  have hrun := consistent_run lib ops
  generalize run lib ops = s at hrun
  refine ⟨fun loaded hloaded => ?_, hrun.wellFormed.idle, fun op player' result hresult => ?_⟩
  · have hwf := hrun.wellFormed.loaded loaded hloaded
    have hitem : loaded.queue[loaded.index]? = some (loaded.current hwf) :=
      getElem?_eq_getElem hwf.index_lt
    refine ⟨hwf.index_lt, hwf.capped, loaded.current hwf, hitem, hrun.lastPlay _ ?_⟩
    rw [Player.current?, hloaded]
    exact hitem
  · rcases Player.apply_cases lib hrun.wellFormed op with ⟨refusal, hrefused⟩ |
      ⟨after, applied, happlied, heffect⟩
    · cases hrefused.symm.trans hresult
      exact ⟨nofun, fun _ _ => rfl, nofun⟩
    · cases happlied.symm.trans hresult
      refine ⟨nofun, nofun, fun applied happ => ?_⟩
      cases happ
      refine ⟨fun position hannounced => ?_, fun item position raw hop => ?_,
        fun position hop => ?_⟩
      · obtain ⟨i, loaded, hposition, hloaded, hi⟩ := heffect.announced position hannounced
        exact ⟨i, loaded, hposition, hloaded, hi⟩
      · subst hop
        rcases Player.queueInsertV4_cases lib hrun.wellFormed item position raw with
          ⟨refusal, hrefused⟩ | ⟨resolved, loaded, index, -, hloaded, -, -, -, hindex, hinsert⟩
        · cases hrefused.symm.trans happlied
        · cases hinsert.symm.trans happlied
          exact ⟨loaded, _, index, resolved, hloaded, rfl, hindex, rfl,
            Loaded.inserted_current (hrun.wellFormed.loaded loaded hloaded) index resolved⟩
      · subst hop
        rcases Player.queueRemoveV4_cases hrun.wellFormed position with
          ⟨refusal, hrefused⟩ | ⟨loaded, index, hloaded, -, -, hindex, hother, hremove⟩
        · cases hrefused.symm.trans happlied
        · cases hremove.symm.trans happlied
          exact ⟨loaded, _, index, hloaded, rfl, hother, rfl,
            Loaded.removed_current hother⟩

end PlayerRun

end Castaway.FCast
