import Castaway.FCast.Steps
import Castaway.Lib.Cursor

/-!
# The queue as version 4 senders see it

A version 4 sender keeps a copy of the queue and its pointer: a `Load` replaces
it, the relays of insertions and removals edit it, and a `QueueItemSelected`
moves the pointer.  A sender is not told of what it asked for itself, and does
that on its own.

Of an item the receiver keeps what it plays and a sender what it was sent, so
the two are compared by what both show of it.

`sees_apply` is the effect of one operation on a copy that is the queue: it
stays the queue, unless the pointer moves and version 4 senders are not told.
-/

namespace Castaway.FCast

open Castaway.Core (PlaybackEnd)
open List

variable {lib : Libraries} {host : Option LocalHost} {player player' : Player}
  {loaded : Loaded} {applied : Applied}

/-! ## Copies -/

abbrev View := Cursor FlatQueueItem

def hear : V4Frame → Option View → Option View
  | .load (.queue items startIndex _), _ => some ⟨items, (startIndex.getD 0).toNat⟩
  | .load (.single _), _ | .stopPlayback, _ => none
  | .queueInsert item position, view => view.map fun view =>
    view.insert (Player.target view.items.length true position) item
  | .queueRemove position, view => view.map fun view =>
    view.remove (Player.target view.items.length false position)
  | .queueItemSelected position, view => view.map fun view =>
    view.select (Player.target view.items.length false position)
  | _, view => view

/-- What a sender shows of an item: all but its headers, and a companion
resource as where we serve it. -/
def shown (host : Option LocalHost) (item : FlatQueueItem) : PlayMessage :=
  (ResolvedItem.echoV4 (Inner.resolveItem host (.fromFlat item.mediaItem))).bare

def Loaded.cursor (loaded : Loaded) : Cursor PlayMessage :=
  ⟨loaded.queue.map fun item => item.echo.bare, loaded.index⟩

/-- While a version 4 queue is loaded the copy is that queue. -/
def Sees (host : Option LocalHost) (player : Player) (view : Option View) : Prop :=
  ∀ loaded, player.loaded = some loaded → loaded.v4Queue = true →
    view.map (Cursor.map (shown host)) = some loaded.cursor

/-! ## Updates -/

def hearUpdate (update : ReceiverUpdate) (view : Option View) : Option View :=
  (v4UpdateFrame update).elim view fun frame => hear frame view

/-- What the updates of an operation make of a copy.  `own` when the sender
asked for it. -/
def heard (own : Bool) (updates : List ReceiverUpdate) (view : Option View) : Option View :=
  (updates.filter fun update => !(own && Inner.isEcho update)).foldl
    (fun view update => hearUpdate update view) view

theorem heard_append (own : Bool) (first second : List ReceiverUpdate) (view : Option View) :
    heard own (first ++ second) view = heard own second (heard own first view) := by
  rw [heard, filter_append, foldl_append]
  rfl

/-- An update that goes to everyone and leaves copies alone. -/
def Unheard (update : ReceiverUpdate) : Prop :=
  Inner.isEcho update = false ∧ ∀ view, hearUpdate update view = view

theorem heard_unheard {updates : List ReceiverUpdate} (h : ∀ update ∈ updates, Unheard update)
    (own : Bool) (view : Option View) : heard own updates view = view := by
  induction updates with
  | nil => rfl
  | cons update updates ih =>
    have hfirst : heard own [update] view = view := by
      obtain ⟨hecho, hsame⟩ := h update mem_cons_self
      rw [heard, filter_cons, hecho, Bool.and_false, Bool.not_false, if_pos rfl]
      exact hsame view
    rw [← singleton_append, heard_append, hfirst]
    exact ih fun other hother => h other (mem_cons_of_mem _ hother)

theorem heard_echo {update : ReceiverUpdate} {frame : V4Frame}
    (hecho : Inner.isEcho update = true) (hframe : v4UpdateFrame update = some frame)
    (own : Bool) (view : Option View) :
    heard own [update] view = if own then view else hear frame view := by
  cases own with
  | true =>
    rw [heard, filter_cons, hecho]
    rfl
  | false =>
    rw [heard, filter_cons, Bool.false_and, Bool.not_false, if_pos rfl, filter_nil,
      foldl_cons, foldl_nil, hearUpdate, hframe]
    rfl

/-- One echo among updates that are not heard: whoever asked makes of its copy
what the others make of theirs. -/
theorem heard_relayed {before after : List ReceiverUpdate} {update : ReceiverUpdate}
    {frame : V4Frame} (hbefore : ∀ update ∈ before, Unheard update)
    (hafter : ∀ update ∈ after, Unheard update) (hecho : Inner.isEcho update = true)
    (hframe : v4UpdateFrame update = some frame) (own : Bool) (view : Option View) :
    heard own (before ++ [update] ++ after) (if own then hear frame view else view) =
      hear frame view := by
  rw [heard_append, heard_append, heard_unheard hbefore, heard_unheard hafter,
    heard_echo hecho hframe]
  cases own <;> rfl

theorem unheard_playback (snapshot : PlaybackSnapshot) : Unheard (.playback snapshot) :=
  ⟨rfl, fun _ => rfl⟩

theorem unheard_started (player : Player) (loaded : Loaded) (item : ResolvedItem) :
    ∀ update ∈ (player.started loaded item).updates, Unheard update := by
  intro update hupdate
  rcases mem_cons.mp hupdate with rfl | hlast
  · exact ⟨rfl, fun _ => rfl⟩
  · cases mem_singleton.mp hlast
    exact unheard_playback _

/-! ## Items -/

theorem echoV4_bare (item : V4MediaItem) :
    (ResolvedItem.echoV4 item.bare).bare = (ResolvedItem.echoV4 item).bare := rfl

/-- A relayed item shows what the item that came in does. -/
theorem shown_strip (host : Option LocalHost) (item : FlatQueueItem) :
    shown host item.strip = shown host item := by
  have hstrip : V4MediaItem.fromFlat item.strip.mediaItem =
      (V4MediaItem.fromFlat item.mediaItem).bare := rfl
  rw [shown, hstrip, Inner.resolveItem_bare, echoV4_bare]
  rfl

theorem echo_resolveV4 {item : V4MediaItem} {what : String} {resolved : ResolvedItem}
    (h : ResolvedItem.resolveV4 lib item what = .ok resolved) :
    resolved.echo = ResolvedItem.echoV4 item := by
  unfold ResolvedItem.resolveV4 at h
  split at h
  · cases h
  · split at h
    · cases h
    · cases h
      rfl

theorem echo_resolveAll {items : List (V4MediaItem × Option ℕ)} {what : ℕ → String}
    {resolved : List ResolvedItem}
    (h : resolveAll (fun item i => ResolvedItem.resolveV4 lib item.1 (what i)) items =
      .ok resolved) :
    (resolved.map ResolvedItem.echo) = items.map fun item => ResolvedItem.echoV4 item.1 := by
  unfold resolveAll at h
  generalize 0 = start at h
  induction items generalizing start resolved with
  | nil => cases h; rfl
  | cons item items ih =>
    rw [zipIdx_cons, mapM_cons] at h
    obtain ⟨first, hfirst, h⟩ := bind_eq_ok.mp h
    obtain ⟨rest, hrest, h⟩ := bind_eq_ok.mp h
    cases h
    rw [map_cons, map_cons, ih _ hrest, echo_resolveV4 hfirst]

/-! ## Operations -/

/-- What a sender holds to be done once its own command is accepted, as the
frame that the others are sent. -/
def Operation.relay : Operation → Option V4Frame
  | .loadV4 _ raw | .queueInsertV4 _ _ raw => some (strippedRelayFrame raw)
  | .queueRemoveV4 position => some (.queueRemove position)
  | .queueSelectV4 position => some (.queueItemSelected position)
  | _ => none

def Operation.Faithful (host : Option LocalHost) : Operation → Prop
  | .loadV4 source raw => ∃ flat,
      source = Inner.resolveSource host (.fromFlat flat) ∧ raw = .load flat
  | .queueInsertV4 item position raw => ∃ flat : FlatQueueItem,
      item = Inner.resolveItem host (.fromFlat flat.mediaItem) ∧ raw = .queueInsert flat position
  | _ => True

/-- Move the pointer of a version 4 queue by a step that no version 4 sender is
told of: a version 3 sender selects another item, or the panel steps to the next
or the previous one. -/
def Player.MovesUntold (player : Player) : Operation → Prop
  | .setPlaylistItem index => ∃ loaded, player.loaded = some loaded ∧ loaded.v4Queue = true ∧
      index < loaded.queue.length ∧ index ≠ loaded.index
  | .step forward => ∃ loaded, player.loaded = some loaded ∧ loaded.v4Queue = true ∧
      if forward then loaded.index + 1 < loaded.queue.length else 0 < loaded.index
  | _ => False

/-- What a copy has become once the sender that asked for `op` has done it. -/
def hearOwn (own : Bool) (op : Operation) (view : Option View) : Option View :=
  if own then op.relay.elim view fun frame => hear frame view else view

theorem Sees.of_loaded_eq {view : Option View} (h : Sees host player view)
    (hloaded : player'.loaded = player.loaded) : Sees host player' view :=
  fun loaded hsome => h loaded (hloaded ▸ hsome)

theorem Sees.of_not_v4 (h : ∀ loaded, player.loaded = some loaded → loaded.v4Queue = false)
    (view : Option View) : Sees host player view := by
  intro loaded hloaded hv4
  rw [h loaded hloaded] at hv4
  cases hv4

/-- A position means the same in a queue and in its copy. -/
theorem Sees.view {view : Option View} (h : Sees host player view)
    (hloaded : player.loaded = some loaded) (hv4 : loaded.v4Queue = true) :
    ∃ copy, view = some copy ∧ copy.map (shown host) = loaded.cursor ∧
      copy.items.length = loaded.queue.length := by
  obtain ⟨copy, hcopy, hmap⟩ := Option.map_eq_some_iff.mp (h loaded hloaded hv4)
  refine ⟨copy, hcopy, hmap, ?_⟩
  rw [Cursor.length_eq_of_map hmap, Loaded.cursor, length_map]

theorem Sees.of_copy {copy : View} (hloaded : player.loaded = some loaded)
    (hmap : copy.map (shown host) = loaded.cursor) : Sees host player (some copy) := by
  intro other hother _
  cases hloaded.symm.trans hother
  rw [Option.map_some, hmap]

theorem cursor_inserted (loaded : Loaded) (index : ℕ) (item : ResolvedItem) :
    (loaded.inserted index item).cursor = loaded.cursor.insert index item.echo.bare := by
  rw [Loaded.cursor, Loaded.inserted, map_insertIdx]
  rfl

theorem cursor_removed (loaded : Loaded) (index : ℕ) :
    (loaded.removed index).cursor = loaded.cursor.remove index := by
  rw [Loaded.cursor, Loaded.removed, ← eraseIdx_map]
  rfl

/-- A load is seen by everyone who hears of it, whatever they saw before. -/
theorem sees_loadV4 {flat : FlatSource}
    (hok : player.loadV4 lib (Inner.resolveSource host (.fromFlat flat)) (.load flat) =
      (player', .ok applied)) (own : Bool) (view : Option View) :
    Sees host player' (heard own applied.updates
      (hearOwn own (.loadV4 (Inner.resolveSource host (.fromFlat flat)) (.load flat)) view)) := by
  rcases player.loadV4_cases lib (Inner.resolveSource host (.fromFlat flat)) (.load flat) with
    ⟨refusal, hrefused⟩ | ⟨queue, index, isPlaylist, autoplay, single, v4Queue, item, hparsed, -, hwf,
      hload⟩
  · cases hrefused.symm.trans hok
  · rw [hload, Player.begin_eq _ hwf] at hok
    cases hok
    have hheard : ∀ started : List ReceiverUpdate, (∀ update ∈ started, Unheard update) →
        heard own (([.playChanged (some item.echo), .v4Load (.load flat)] ++ started) ++
          [.volume (player.withVolume item.echo.volume).volume])
          (hearOwn own (.loadV4 (Inner.resolveSource host (.fromFlat flat)) (.load flat)) view) =
        hear (.load flat.strip) view := by
      intro started hstarted
      have hafter : ∀ update ∈ started ++ [.volume (player.withVolume item.echo.volume).volume],
          Unheard update := by
        intro update hupdate
        rcases mem_append.mp hupdate with hfirst | hlast
        · exact hstarted update hfirst
        · cases mem_singleton.mp hlast
          exact ⟨rfl, fun _ => rfl⟩
      have hbefore : ∀ update ∈ [ReceiverUpdate.playChanged (some item.echo)], Unheard update := by
        intro update hupdate
        cases mem_singleton.mp hupdate
        exact ⟨rfl, fun _ => rfl⟩
      rw [append_assoc]
      exact heard_relayed hbefore hafter rfl rfl own view
    rw [hheard _ (unheard_started _ _ _)]
    cases flat with
    | single flat =>
      refine .of_not_v4 (fun loaded hloaded => ?_) _
      cases hloaded
      unfold Player.parseLoadV4 Inner.resolveSource LoadSource.fromFlat at hparsed
      dsimp only at hparsed
      split at hparsed
      · cases hparsed
      · cases hparsed
        rfl
    | queue items startIndex autoplay' =>
      refine .of_copy rfl ?_
      unfold Player.parseLoadV4 Inner.resolveSource LoadSource.fromFlat at hparsed
      dsimp only at hparsed
      split at hparsed
      · cases hparsed
      · split at hparsed
        · cases hparsed
        · split at hparsed
          · cases hparsed
          · split at hparsed
            · cases hparsed
            next resolved hresolved =>
              cases hparsed
              have hechoes := congrArg (List.map PlayMessage.bare) (echo_resolveAll hresolved)
              rw [map_map, map_map, map_map, map_map] at hechoes
              rw [Cursor.map, Loaded.cursor, map_map]
              refine congrArg (Cursor.mk · _) ?_
              refine Eq.trans (map_congr_left fun item _ => ?_) hechoes.symm
              exact shown_strip host item

/-- An edit of the queue, heard of as the same edit of the copy. -/
theorem sees_edited {view : Option View} {loaded' : Loaded} {op : Operation}
    {relay : ReceiverUpdate} {frame : V4Frame} (hrelay : op.relay = some frame)
    (hecho : Inner.isEcho relay = true) (hframe : v4UpdateFrame relay = some frame)
    (hhear : ∀ copy : View, copy.map (shown host) = loaded.cursor →
      copy.items.length = loaded.queue.length →
        ∃ copy', hear frame (some copy) = some copy' ∧
          copy'.map (shown host) = loaded'.cursor)
    (h : Sees host player view) (hloaded : player.loaded = some loaded)
    (hv4 : loaded.v4Queue = true) (own : Bool) : Sees host { player with loaded := some loaded' }
      (heard own (player.editing loaded' relay).updates (hearOwn own op view)) := by
  obtain ⟨copy, rfl, hmap, hlength⟩ := h.view hloaded hv4
  obtain ⟨copy', hcopy', hmap'⟩ := hhear copy hmap hlength
  have hheard : heard own (player.editing loaded' relay).updates (hearOwn own op (some copy)) =
      hear frame (some copy) := by
    rw [hearOwn, hrelay]
    refine @heard_relayed [] _ _ _ (fun _ h => absurd h not_mem_nil)
      (fun update hupdate => ?_) hecho hframe own (some copy)
    cases mem_singleton.mp hupdate
    exact unheard_playback _
  rw [hheard, hcopy']
  exact .of_copy rfl hmap'

/-- Nothing about the load changes and nothing is heard. -/
theorem sees_same {view : Option View} {op : Operation} (hrelay : op.relay = none)
    (h : Sees host player view) (hloaded : player'.loaded = player.loaded)
    (hunheard : ∀ update ∈ applied.updates, Unheard update) (own : Bool) :
    Sees host player' (heard own applied.updates (hearOwn own op view)) := by
  have hown : hearOwn own op view = view := by
    rw [hearOwn, hrelay]
    cases own <;> rfl
  rw [hown, heard_unheard hunheard]
  exact h.of_loaded_eq hloaded

theorem unheard_single {update : ReceiverUpdate} (h : Unheard update) :
    ∀ other ∈ [update], Unheard other := by
  intro other hother
  cases mem_singleton.mp hother
  exact h

/-! ### Each operation -/

/-- Once it has heard of an operation that is accepted, the copy is the queue
again. -/
def StaysSeen (lib : Libraries) (host : Option LocalHost) (own : Bool) (player : Player)
    (view : Option View) (op : Operation) : Prop :=
  ∀ player' applied, player.apply lib op = (player', .ok applied) →
    Sees host player' (heard own applied.updates (hearOwn own op view))

section

variable {own : Bool} {view : Option View}

theorem stays_load (play : PlayMessage) :
    StaysSeen lib host own player view (.load play) := by
  intro player' applied hok
  rcases player.load_cases lib play with ⟨refusal, hrefused⟩ |
    ⟨queue, index, isPlaylist, -, hload, hbegin⟩
  · cases hrefused.symm.trans hok
  · rw [Player.apply, hbegin, Player.begin_eq _ hload] at hok
    cases hok
    refine .of_not_v4 (fun loaded hloaded => ?_) _
    cases hloaded
    rfl

section

variable (hwf : player.WellFormed)
include hwf

section

variable (h : Sees host player view)
include h

/-- The copy is inserted into where the queue is, with the item as it is shown.
-/
theorem stays_queueInsertV4 {flat : FlatQueueItem} {position : QueuePosition} :
    StaysSeen lib host own player view
      (.queueInsertV4 (Inner.resolveItem host (.fromFlat flat.mediaItem)) position
        (.queueInsert flat position)) := by
  intro player' applied hok
  rcases Player.queueInsertV4_cases lib hwf (Inner.resolveItem host (.fromFlat flat.mediaItem))
      position (.queueInsert flat position) with ⟨refusal, hrefused⟩ |
    ⟨resolved, loaded, index, hresolved, hloaded, hv4, -, hposition, hindex, hinsert⟩
  · cases hrefused.symm.trans hok
  · cases hinsert.symm.trans hok
    refine sees_edited rfl rfl rfl (fun copy hmap hlength => ⟨_, rfl, ?_⟩) h hloaded hv4 own
    rw [Cursor.map_insert, hmap, hlength, shown_strip, cursor_inserted,
      (Player.positionIndex_ok hposition).1, echo_resolveV4 hresolved]
    rfl

theorem stays_queueRemoveV4 (position : QueuePosition) :
    StaysSeen lib host own player view (.queueRemoveV4 position) := by
  intro player' applied hok
  rcases Player.queueRemoveV4_cases hwf position with ⟨refusal, hrefused⟩ |
    ⟨loaded, index, hloaded, hv4, hposition, hindex, hother, hremove⟩
  · cases hrefused.symm.trans hok
  · cases hremove.symm.trans hok
    refine sees_edited rfl rfl rfl (fun copy hmap hlength => ⟨_, rfl, ?_⟩) h hloaded hv4 own
    rw [Cursor.map_remove, hmap, hlength, cursor_removed,
      (Player.positionIndex_ok hposition).1]

theorem stays_queueSelectV4 (position : QueuePosition) :
    StaysSeen lib host own player view (.queueSelectV4 position) := by
  intro player' applied hok
  rcases Player.queueSelectV4_cases hwf position with ⟨refusal, hrefused⟩ |
    ⟨loaded, index, hloaded, hv4, hposition, hselected, hselect⟩
  · cases hrefused.symm.trans hok
  · cases hselect.symm.trans hok
    obtain ⟨copy, rfl, hmap, hlength⟩ := h.view hloaded hv4
    have hheard : heard own ((player.jumped _ hselected).updates ++
        [.queueSelectRelay position false]) (hearOwn own (.queueSelectV4 position) (some copy)) =
          hear (.queueItemSelected position) (some copy) := by
      have hrelayed := @heard_relayed _ [] (.queueSelectRelay position false) _
        (unheard_started (player.playing { loaded with index }) { loaded with index }
          (Loaded.current _ hselected))
        (fun _ h => absurd h not_mem_nil) rfl rfl own (some copy)
      rwa [append_nil] at hrelayed
    rw [hheard]
    refine .of_copy rfl ?_
    rw [Cursor.map_select, hmap, hlength, ← (Player.positionIndex_ok hposition).1]
    rfl

/-- In a version 4 queue only the item that is current may be selected so. -/
theorem stays_setPlaylistItem {index : ℕ} (htold : ¬ player.MovesUntold (.setPlaylistItem index)) :
    StaysSeen lib host own player view (.setPlaylistItem index) := by
  intro player' applied hok
  rcases Player.setPlaylistItem_cases hwf index with ⟨refusal, hrefused⟩ |
    ⟨loaded, hloaded, -, hindex, hselected, hset⟩
  · cases hrefused.symm.trans hok
  · cases hset.symm.trans hok
    by_cases hv4 : loaded.v4Queue = true
    · -- the item that is current is started again
      have hsame : index = loaded.index := by
        by_contra hother
        exact htold ⟨loaded, hloaded, hv4, hindex, hother⟩
      subst hsame
      exact sees_same rfl h hloaded.symm (unheard_started _ _ _) own
    · refine .of_not_v4 (fun other hother => ?_) _
      cases hother
      exact Bool.eq_false_iff.mpr hv4

end

/-- A step that is taken is not one of a version 4 queue. -/
theorem stays_step {forward : Bool} (htold : ¬ player.MovesUntold (.step forward)) :
    StaysSeen lib host own player view (.step forward) := by
  intro player' applied hok
  rcases player.step_cases forward with ⟨refusal, hrefused⟩ |
    ⟨loaded, index, hloaded, hindex, hother, hstep⟩
  · cases hrefused.symm.trans hok
  · rcases Player.setPlaylistItem_cases hwf index with ⟨refusal, hrefused⟩ |
      ⟨loaded', hloaded', -, hlt, hselected, hset⟩
    · cases (hstep.trans hrefused).symm.trans hok
    · cases (hstep.trans hset).symm.trans hok
      cases hloaded.symm.trans hloaded'
      refine .of_not_v4 (fun other hsome => ?_) _
      cases hsome
      by_contra hv4
      refine htold ⟨loaded, hloaded, Bool.eq_true_of_not_eq_false hv4, ?_⟩
      cases forward with
      | true =>
        simp only [if_pos] at hindex ⊢
        omega
      | false =>
        simp only [Bool.false_eq_true, if_false] at hindex ⊢
        omega

end

section

variable (h : Sees host player view)
include h

theorem stays_pause :
    StaysSeen lib host own player view .pause := by
  intro player' applied hok
  cases hok
  unfold Player.pause
  split
  · exact sees_same rfl h rfl (fun _ h => absurd h not_mem_nil) own
  · exact sees_same rfl h rfl (unheard_single (unheard_playback _)) own

theorem stays_resume :
    StaysSeen lib host own player view .resume := by
  intro player' applied hok
  cases hok
  unfold Player.resume
  split
  · exact sees_same rfl h rfl (fun _ h => absurd h not_mem_nil) own
  · exact sees_same rfl h rfl (unheard_single (unheard_playback _)) own

theorem stays_stop :
    StaysSeen lib host own player view .stop := by
  intro player' applied hok
  cases hok
  unfold Player.stop
  split
  · exact sees_same rfl h rfl (fun _ h => absurd h not_mem_nil) own
  · exact .of_not_v4 (fun _ hloaded => by cases hloaded) _

theorem stays_seek (target : ℕ) :
    StaysSeen lib host own player view (.seek target) := by
  intro player' applied hok
  cases hok
  unfold Player.seek
  split
  · exact sees_same rfl h rfl (fun _ h => absurd h not_mem_nil) own
  · refine sees_same rfl h rfl (fun update hupdate => ?_) own
    rcases mem_cons.mp hupdate with rfl | hlast
    · exact unheard_playback _
    · cases mem_singleton.mp hlast
      exact ⟨rfl, fun _ => rfl⟩

theorem stays_setVolume (volume : Double) :
    StaysSeen lib host own player view (.setVolume volume) := by
  intro player' applied hok
  cases hok
  exact sees_same rfl h rfl (unheard_single ⟨rfl, fun _ => rfl⟩) own

theorem stays_setSpeed (speed : Double) (shown : String) :
    StaysSeen lib host own player view (.setSpeed speed shown) := by
  intro player' applied hok
  rw [Player.apply, Player.setSpeed] at hok
  split at hok
  · cases hok
    exact sees_same rfl h rfl (fun _ h => absurd h not_mem_nil) own
  · cases hok

end

/-- The end of an item moves the pointer, and every version 4 sender is told
where to. -/
theorem stays_mediaEnded (hwf : player.WellFormed) (h : Sees host player view)
    (ending : PlaybackEnd) :
    StaysSeen lib host own player view (.mediaEnded ending) := by
  intro player' applied hok
  rcases Player.mediaEnded_cases hwf ending with ⟨-, hended⟩ |
    ⟨loaded, hloaded_wf, hloaded, ⟨hnext, hended⟩ | hended⟩
  · cases hended.symm.trans hok
    exact sees_same rfl h rfl (fun _ h => absurd h not_mem_nil) own
  · cases hended.symm.trans hok
    by_cases hv4 : loaded.v4Queue = true
    · -- the receiver tells everyone where it has moved to
      obtain ⟨copy, rfl, hmap, hlength⟩ := h.view hloaded hv4
      have hown : hearOwn own (.mediaEnded ending) (some copy) = some copy := by
        cases own <;> rfl
      have hquiet : ∀ update ∈ ReceiverUpdate.mediaItem .end (loaded.current hloaded_wf).echo ::
          (player.jumped _ hnext).updates, Unheard update := by
        intro update hupdate
        rcases mem_cons.mp hupdate with rfl | hstarted
        · exact ⟨rfl, fun _ => rfl⟩
        · exact unheard_started _ _ _ update hstarted
      have hannounced : heard own (Player.announcement { loaded with index := loaded.index + 1 })
          (some copy) = some (copy.select (UInt8.ofNat (loaded.index + 1)).toNat) := by
        rw [Player.announcement, if_pos (show ({ loaded with index := loaded.index + 1 } :
          Loaded).v4Queue = true from hv4)]
        cases own <;> rfl
      have hbyte : (UInt8.ofNat (loaded.index + 1)).toNat = loaded.index + 1 := by
        have hcapped := hloaded_wf.capped hv4
        have hlt : loaded.index + 1 < loaded.queue.length := hnext.index_lt
        rw [UInt8.toNat_ofNat']
        omega
      dsimp only
      rw [hown, heard_append, heard_unheard hquiet, hannounced, hbyte]
      refine .of_copy rfl ?_
      rw [Cursor.map_select, hmap]
      rfl
    · refine .of_not_v4 (fun other hother => ?_) _
      cases hother
      exact Bool.eq_false_iff.mpr hv4
  · cases hended.symm.trans hok
    refine sees_same rfl h rfl (fun update hupdate => ?_) own
    rcases mem_append.mp hupdate with hfirst | hlast
    · rcases mem_cons.mp hfirst with rfl | herror
      · exact ⟨rfl, fun _ => rfl⟩
      · cases ending with
        | finished => cases herror
        | failed cause detail =>
          cases mem_singleton.mp herror
          exact ⟨rfl, fun _ => rfl⟩
    · cases mem_singleton.mp hlast
      exact unheard_playback _

end

/-- **One operation**: an accepted one that does not move the pointer untold
keeps every copy that was the queue the queue. -/
theorem sees_apply (hwf : player.WellFormed) {op : Operation}
    (hok : player.apply lib op = (player', .ok applied)) (htold : ¬ player.MovesUntold op)
    (hfaithful : op.Faithful host) (own : Bool) {view : Option View} (h : Sees host player view) :
    Sees host player' (heard own applied.updates (hearOwn own op view)) := by
  suffices hstays : StaysSeen lib host own player view op from hstays player' applied hok
  cases op with
  | load play => exact stays_load play
  | loadV4 source raw =>
    obtain ⟨flat, rfl, rfl⟩ := hfaithful
    exact fun _ _ hok => sees_loadV4 hok own view
  | queueInsertV4 item position raw =>
    obtain ⟨flat, rfl, rfl⟩ := hfaithful
    exact stays_queueInsertV4 hwf h
  | queueRemoveV4 position => exact stays_queueRemoveV4 hwf h position
  | queueSelectV4 position => exact stays_queueSelectV4 hwf h position
  | setPlaylistItem index => exact stays_setPlaylistItem hwf h htold
  | step forward => exact stays_step hwf htold
  | pause => exact stays_pause h
  | resume => exact stays_resume h
  | stop => exact stays_stop h
  | seek target => exact stays_seek h target
  | setVolume volume => exact stays_setVolume h volume
  | setSpeed speed shown => exact stays_setSpeed h speed shown
  | mediaEnded ending => exact stays_mediaEnded hwf h ending

end Castaway.FCast
