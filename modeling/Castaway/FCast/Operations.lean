import Castaway.FCast.Player

/-!
# What each operation of the player does

One lemma for each operation: it is refused and the player is as it was, or it
does what the lemma says.  A load whose index is in its queue never indexes past
the end, so on a `WellFormed` player no operation panics.
-/

namespace Castaway.FCast

open Castaway.Core (ControlTxn PlaybackEnd FailureCause)
open List

variable {lib : Libraries} {player player' : Player} {loaded : Loaded} {applied : Applied}

/-! ## Well-formed players -/

/-- A load whose index is that of an item, and which is a short playlist if
version 4 senders may change it. -/
structure Loaded.WellFormed (loaded : Loaded) : Prop where
  index_lt : loaded.index < loaded.queue.length
  capped : loaded.v4Queue = true → loaded.queue.length ≤ 256
  playlist : loaded.v4Queue = true → loaded.isPlaylist = true

/-- What is loaded is well-formed. -/
structure Player.WellFormed (player : Player) : Prop where
  loaded : ∀ loaded, player.loaded = some loaded → loaded.WellFormed
  idle : player.loaded = none → player.state = .idle

/-- The queue with an item put in at `index`. -/
def Loaded.inserted (loaded : Loaded) (index : ℕ) (item : ResolvedItem) : Loaded :=
  { loaded with
    queue := loaded.queue.insertIdx index item
    index := if index ≤ loaded.index then loaded.index + 1 else loaded.index }

/-- The queue without the item at `index`. -/
def Loaded.removed (loaded : Loaded) (index : ℕ) : Loaded :=
  { loaded with
    queue := loaded.queue.eraseIdx index
    index := if index < loaded.index then loaded.index - 1 else loaded.index }

/-- An item put in beside the current one leaves it current. -/
theorem Loaded.inserted_current (h : loaded.WellFormed) (index : ℕ) (item : ResolvedItem) :
    (loaded.inserted index item).queue[(loaded.inserted index item).index]? =
      loaded.queue[loaded.index]? := by
  have hlt := h.index_lt
  by_cases hbefore : index ≤ loaded.index
  · simp only [Loaded.inserted, if_pos hbefore]
    rw [getElem?_insertIdx_of_gt (by omega), Nat.add_sub_cancel]
  · simp only [Loaded.inserted, if_neg hbefore]
    rw [getElem?_insertIdx_of_lt (by omega)]

theorem Loaded.WellFormed.inserted (h : loaded.WellFormed) {index : ℕ}
    (hindex : index ≤ loaded.queue.length) (hroom : loaded.queue.length < 256)
    (item : ResolvedItem) : (loaded.inserted index item).WellFormed where
  index_lt := by
    have hlt := h.index_lt
    simp only [Loaded.inserted, length_insertIdx_of_le_length hindex]
    split <;> omega
  capped := fun _ => by
    simp only [Loaded.inserted, length_insertIdx_of_le_length hindex]
    omega
  playlist := h.playlist

/-- Another item taken out leaves the current one current. -/
theorem Loaded.removed_current {index : ℕ} (hother : index ≠ loaded.index) :
    (loaded.removed index).queue[(loaded.removed index).index]? =
      loaded.queue[loaded.index]? := by
  by_cases hbefore : index < loaded.index
  · simp only [Loaded.removed, if_pos hbefore]
    rw [getElem?_eraseIdx_of_ge (by omega), Nat.sub_add_cancel (by omega)]
  · simp only [Loaded.removed, if_neg hbefore]
    rw [getElem?_eraseIdx_of_lt (by omega)]

theorem Loaded.WellFormed.removed (h : loaded.WellFormed) {index : ℕ}
    (hindex : index < loaded.queue.length) (hother : index ≠ loaded.index) :
    (loaded.removed index).WellFormed where
  index_lt := by
    have hlt := h.index_lt
    simp only [Loaded.removed, length_eraseIdx_of_lt hindex]
    split <;> omega
  capped := fun hqueue => by
    have hcapped := h.capped hqueue
    simp only [Loaded.removed, length_eraseIdx_of_lt hindex]
    omega
  playlist := h.playlist

/-- Another item of the queue, made current. -/
theorem Loaded.WellFormed.select (h : loaded.WellFormed) {index : ℕ}
    (hindex : index < loaded.queue.length) :
    ({ loaded with index := index } : Loaded).WellFormed where
  index_lt := hindex
  capped := h.capped
  playlist := h.playlist

def Loaded.current (loaded : Loaded) (h : loaded.WellFormed) : ResolvedItem :=
  loaded.queue.get ⟨loaded.index, h.index_lt⟩

theorem mapM_ok_length {α β ε : Type} {f : α → Except ε β} {items : List α} {results : List β}
    (h : items.mapM f = .ok results) : results.length = items.length := by
  induction items generalizing results with
  | nil => cases h; rfl
  | cons item items ih =>
    rw [mapM_cons] at h
    obtain ⟨result, -, h⟩ := bind_eq_ok.mp h
    obtain ⟨tail, htail, h⟩ := bind_eq_ok.mp h
    cases h
    rw [length_cons, ih htail, length_cons]

theorem resolveAll_length {α : Type} {resolve : α → ℕ → Except Refusal ResolvedItem}
    {items : List α} {results : List ResolvedItem} (h : resolveAll resolve items = .ok results) :
    results.length = items.length := by
  rw [mapM_ok_length h, length_zipIdx]

namespace Player

/-! ## Starting and editing -/

/-- The titles of what comes after the current item. -/
def nextTitles (loaded : Loaded) : List String :=
  (loaded.queue.drop (loaded.index + 1)).map fun next => next.title.getD next.request.uri.text

def started (player : Player) (loaded : Loaded) (item : ResolvedItem) : Applied where
  events := [.play item.request item.start, .nowPlaying ⟨item.title, none⟩] ++
    if (nextTitles loaded).isEmpty then [] else [.upNext (nextTitles loaded)]
  updates := [.mediaItem (if loaded.isPlaylist then .change else .start) item.echo,
    .playback (player.snapshot none)]

/-- The pointer of a well-formed queue is not out of range. -/
theorem itemAt_eq (h : loaded.WellFormed) :
    itemAt loaded.queue loaded.index = .ok (loaded.current h) := by
  rw [itemAt, getElem?_eq_getElem h.index_lt]
  rfl

theorem upNext_eq (h : loaded.WellFormed) : upNext loaded = .ok (nextTitles loaded) := by
  rw [upNext, itemsFrom, if_pos (Nat.succ_le_of_lt h.index_lt)]
  rfl

theorem startCurrent_eq (hloaded : player.loaded = some loaded) (h : loaded.WellFormed) :
    player.startCurrent = .ok (player.started loaded (loaded.current h)) := by
  simp only [startCurrent, hloaded, itemAt_eq h, upNext_eq h, ok_bind]
  rfl

/-- A player that has just begun with `loaded`. -/
def playing (player : Player) (loaded : Loaded) : Player :=
  { player with loaded := some loaded, state := .playing }

/-- Starting a queue tells the item, the titles behind it and the volume. -/
theorem begin_eq (player : Player) (h : loaded.WellFormed) (relayed : List ReceiverUpdate) :
    player.begin loaded relayed = (player.playing loaded, .ok {
      events := ((player.playing loaded).started loaded (loaded.current h)).events ++
        [volumeEvent player.volume]
      updates := relayed ++
        ((player.playing loaded).started loaded (loaded.current h)).updates ++
        [.volume player.volume] }) := by
  have hstart : ({ player with loaded := some loaded, state := .playing } : Player).startCurrent =
      .ok ((player.playing loaded).started loaded (loaded.current h)) := startCurrent_eq rfl h
  simp only [begin, hstart]
  rfl

variable {index : ℕ}

theorem jump_eq (player : Player) (h : ({ loaded with index := index } : Loaded).WellFormed) :
    player.jump loaded index = (player.playing { loaded with index },
      .ok ((player.playing { loaded with index }).started { loaded with index }
        (Loaded.current _ h))) := by
  rw [← startCurrent_eq rfl h]
  rfl

def editing (player : Player) (loaded : Loaded) (relay : ReceiverUpdate) : Applied where
  events := [.upNext (nextTitles loaded)]
  updates := [relay, .playback (({ player with loaded := some loaded } : Player).snapshot none)]

theorem edited_eq (player : Player) (h : loaded.WellFormed) (relay : ReceiverUpdate) :
    player.edited loaded relay =
      ({ player with loaded := some loaded }, .ok (player.editing loaded relay)) := by
  rw [edited, upNext_eq h]
  rfl

/-! ## Loads -/

/-- A playlist that is accepted has an item at its offset. -/
theorem parseLoad_ok {play : PlayMessage} {queue : List ResolvedItem}
    {isPlaylist : Bool} (h : parseLoad lib play = .ok (queue, index, isPlaylist)) :
    index < queue.length := by
  unfold parseLoad at h
  split at h
  · split at h
    · cases h
    · split at h
      · cases h
      next playlist _ =>
        split at h
        · cases h
        next hsome =>
          dsimp only at h
          split at h
          · cases h
          next items hitems =>
            cases h
            have hlength := resolveAll_length hitems
            have hpos : 0 < playlist.items.length :=
              length_pos_iff.mpr fun hnil => hsome (by rw [hnil]; rfl)
            omega
  · split at h
    · cases h
    · cases h
      exact Nat.one_pos

/-- A load is refused and changes nothing, or it starts a well-formed queue. -/
theorem load_cases (lib : Libraries) (player : Player) (play : PlayMessage) :
    (∃ refusal, player.load lib play = (player, .error (.refused refusal))) ∨
    ∃ queue index isPlaylist, parseLoad lib play = .ok (queue, index, isPlaylist) ∧
      ∃ _ : Loaded.WellFormed ⟨play, queue, index, isPlaylist, true, none, false⟩,
        player.load lib play =
          (player.withVolume play.volume).begin
            ⟨play, queue, index, isPlaylist, true, none, false⟩ [.playChanged (some play)] := by
  rw [load]
  cases hparse : parseLoad lib play with
  | error refusal => exact .inl ⟨refusal, rfl⟩
  | ok parsed =>
    obtain ⟨queue, index, isPlaylist⟩ := parsed
    exact .inr ⟨queue, index, isPlaylist, rfl, ⟨parseLoad_ok hparse, nofun, nofun⟩, rfl⟩

theorem parseLoadV4_ok {source : LoadSource} {raw : RawPacket} {queue : List ResolvedItem}
    {isPlaylist autoplay v4Queue : Bool} {v4SingleRaw : Option RawPacket}
    (h : parseLoadV4 lib source raw =
      .ok (queue, index, isPlaylist, autoplay, v4SingleRaw, v4Queue)) :
    index < queue.length ∧ (v4Queue = true → queue.length ≤ 256) ∧
      (v4Queue = true → isPlaylist = true) := by
  unfold parseLoadV4 at h
  split at h
  · split at h
    · cases h
    · cases h
      exact ⟨Nat.one_pos, nofun, nofun⟩
  · split at h
    · cases h
    · split at h
      · cases h
      · dsimp only at h
        split at h
        · cases h
        · split at h
          · cases h
          next hitems =>
            cases h
            have hlength := resolveAll_length hitems
            exact ⟨by omega, fun _ => by omega, fun _ => rfl⟩

theorem loadV4_cases (lib : Libraries) (player : Player) (source : LoadSource) (raw : RawPacket) :
    (∃ refusal, player.loadV4 lib source raw = (player, .error (.refused refusal))) ∨
    ∃ queue index isPlaylist autoplay v4SingleRaw v4Queue item,
      parseLoadV4 lib source raw =
        .ok (queue, index, isPlaylist, autoplay, v4SingleRaw, v4Queue) ∧
      queue[index]? = some item ∧
      ∃ _ : Loaded.WellFormed
          ⟨item.echo, queue, index, isPlaylist, autoplay, v4SingleRaw, v4Queue⟩,
        player.loadV4 lib source raw =
          (player.withVolume item.echo.volume).begin
            ⟨item.echo, queue, index, isPlaylist, autoplay, v4SingleRaw, v4Queue⟩
            [.playChanged (some item.echo), .v4Load raw] := by
  rw [loadV4]
  cases hparse : parseLoadV4 lib source raw with
  | error refusal => exact .inl ⟨refusal, rfl⟩
  | ok parsed =>
    obtain ⟨queue, index, isPlaylist, autoplay, v4SingleRaw, v4Queue⟩ := parsed
    obtain ⟨hindex, hcapped, hplaylist⟩ := parseLoadV4_ok hparse
    have hitem : queue[index]? = some queue[index] := getElem?_eq_getElem hindex
    refine .inr ⟨queue, index, isPlaylist, autoplay, v4SingleRaw, v4Queue, queue[index], rfl,
      hitem, ⟨hindex, hcapped, hplaylist⟩, ?_⟩
    simp only [itemAt, hitem]

/-! ## The queue -/

/-- A position that is accepted is a place in the queue. -/
theorem positionIndex_ok {position : QueuePosition} {insert : Bool}
    (h : positionIndex loaded position insert = .ok index) :
    index = target loaded.queue.length insert position ∧
      index ≤ if insert then loaded.queue.length else loaded.queue.length - 1 := by
  by_cases hlimit : (if insert then loaded.queue.length else loaded.queue.length - 1) <
      target loaded.queue.length insert position
  · rw [positionIndex, if_pos hlimit] at h
    cases h
  · rw [positionIndex, if_neg hlimit] at h
    obtain rfl := Except.ok.inj h
    exact ⟨rfl, Nat.le_of_not_lt hlimit⟩

theorem v4QueueMut_ok (h : player.v4QueueMut = .ok loaded) :
    player.loaded = some loaded ∧ loaded.v4Queue = true := by
  unfold v4QueueMut at h
  split at h
  next hfilter =>
    cases h
    exact Option.filter_eq_some_iff.mp hfilter
  · cases h

theorem queueInsertV4_cases (lib : Libraries) (hplayer : player.WellFormed) (item : V4MediaItem)
    (position : QueuePosition) (raw : RawPacket) :
    (∃ refusal, player.queueInsertV4 lib item position raw =
      (player, .error (.refused refusal))) ∨
    ∃ resolved loaded index, ResolvedItem.resolveV4 lib item "inserted item" = .ok resolved ∧
      player.loaded = some loaded ∧ loaded.v4Queue = true ∧ loaded.queue.length < 256 ∧
      positionIndex loaded position true = .ok index ∧ index ≤ loaded.queue.length ∧
      player.queueInsertV4 lib item position raw =
        ({ player with loaded := some (loaded.inserted index resolved) },
          .ok (player.editing (loaded.inserted index resolved) (.queueInsertRelay raw))) := by
  rw [queueInsertV4]
  cases hresolved : ResolvedItem.resolveV4 lib item "inserted item" with
  | error refusal => exact .inl ⟨refusal, rfl⟩
  | ok resolved =>
    cases hqueue : player.v4QueueMut with
    | error refusal => exact .inl ⟨refusal, rfl⟩
    | ok loaded =>
      obtain ⟨hloaded, hv4⟩ := v4QueueMut_ok hqueue
      by_cases hfull : 256 ≤ loaded.queue.length
      · exact .inl ⟨_, if_pos hfull⟩
      · dsimp only
        rw [if_neg hfull]
        cases hposition : positionIndex loaded position true with
        | error refusal => exact .inl ⟨refusal, rfl⟩
        | ok index =>
          have hindex : index ≤ loaded.queue.length := (positionIndex_ok hposition).2
          have hroom : loaded.queue.length < 256 := by omega
          refine .inr ⟨resolved, loaded, index, rfl, hloaded, hv4, hroom, hposition, hindex,
            ?_⟩
          rw [← edited_eq player
            ((hplayer.loaded loaded hloaded).inserted hindex hroom resolved)]
          simp only [insertItem, if_pos hindex]
          rfl

/-- The item that plays is never removed. -/
theorem queueRemoveV4_cases (hplayer : player.WellFormed) (position : QueuePosition) :
    (∃ refusal, player.queueRemoveV4 position = (player, .error (.refused refusal))) ∨
    ∃ loaded index, player.loaded = some loaded ∧ loaded.v4Queue = true ∧
      positionIndex loaded position false = .ok index ∧ index < loaded.queue.length ∧
      index ≠ loaded.index ∧
      player.queueRemoveV4 position =
        ({ player with loaded := some (loaded.removed index) },
          .ok (player.editing (loaded.removed index) (.queueRemoveRelay position))) := by
  rw [queueRemoveV4]
  cases hqueue : player.v4QueueMut with
  | error refusal => exact .inl ⟨refusal, rfl⟩
  | ok loaded =>
    obtain ⟨hloaded, hv4⟩ := v4QueueMut_ok hqueue
    dsimp only
    cases hposition : positionIndex loaded position false with
    | error refusal => exact .inl ⟨refusal, rfl⟩
    | ok index =>
      by_cases hcurrent : index = loaded.index
      · exact .inl ⟨_, if_pos hcurrent⟩
      · have hlt := (hplayer.loaded loaded hloaded).index_lt
        have hlast : index ≤ loaded.queue.length - 1 := (positionIndex_ok hposition).2
        have hindex : index < loaded.queue.length := by omega
        refine .inr ⟨loaded, index, hloaded, hv4, hposition, hindex, hcurrent, ?_⟩
        rw [← edited_eq player
          ((hplayer.loaded loaded hloaded).removed hindex hcurrent)]
        simp only [if_neg hcurrent, removeItem, if_pos hindex]
        rfl

def jumped (player : Player) (loaded : Loaded) (h : loaded.WellFormed) : Applied :=
  (player.playing loaded).started loaded (loaded.current h)

theorem queueSelectV4_cases (hplayer : player.WellFormed) (position : QueuePosition) :
    (∃ refusal, player.queueSelectV4 position = (player, .error (.refused refusal))) ∨
    ∃ loaded index, player.loaded = some loaded ∧ loaded.v4Queue = true ∧
      positionIndex loaded position false = .ok index ∧
      ∃ h : ({ loaded with index := index } : Loaded).WellFormed,
        player.queueSelectV4 position = (player.playing { loaded with index },
          .ok ⟨(player.jumped _ h).events,
            (player.jumped _ h).updates ++ [.queueSelectRelay position false]⟩) := by
  rw [queueSelectV4]
  cases hqueue : player.v4QueueMut with
  | error refusal => exact .inl ⟨refusal, rfl⟩
  | ok loaded =>
    obtain ⟨hloaded, hv4⟩ := v4QueueMut_ok hqueue
    dsimp only
    cases hposition : positionIndex loaded position false with
    | error refusal => exact .inl ⟨refusal, rfl⟩
    | ok index =>
      have hwf := hplayer.loaded loaded hloaded
      have hlt := hwf.index_lt
      have hlast : index ≤ loaded.queue.length - 1 := (positionIndex_ok hposition).2
      have hindex : index < loaded.queue.length := by omega
      refine .inr ⟨loaded, index, hloaded, hv4, hposition, hwf.select hindex, ?_⟩
      simp only [player.jump_eq (hwf.select hindex)]
      rfl

/-! ## Playlists and the end of an item -/

theorem setPlaylistItem_cases (hplayer : player.WellFormed) (index : ℕ) :
    (∃ refusal, player.setPlaylistItem index = (player, .error (.refused refusal))) ∨
    ∃ loaded, player.loaded = some loaded ∧ loaded.isPlaylist = true ∧
      index < loaded.queue.length ∧
      ∃ h : ({ loaded with index := index } : Loaded).WellFormed,
        player.setPlaylistItem index =
          (player.playing { loaded with index }, .ok (player.jumped _ h)) := by
  rw [setPlaylistItem]
  cases hloaded : player.loaded with
  | none => exact .inl ⟨_, rfl⟩
  | some loaded =>
    dsimp only
    by_cases hplaylist : loaded.isPlaylist = true
    · rw [hplaylist, Bool.not_true, if_neg Bool.false_ne_true]
      by_cases hrange : loaded.queue.length ≤ index
      · exact .inl ⟨_, if_pos hrange⟩
      · have hindex : index < loaded.queue.length := Nat.lt_of_not_le hrange
        have hwf := (hplayer.loaded loaded hloaded).select hindex
        refine .inr ⟨loaded, rfl, hplaylist, hindex, hwf, ?_⟩
        rw [if_neg hrange, player.jump_eq hwf]
        rfl
    · rw [(Bool.not_eq_true _).mp hplaylist]
      exact .inl ⟨_, rfl⟩

/-- A step to a neighbour is a jump to it, if there is one. -/
theorem step_cases (player : Player) (forward : Bool) :
    (∃ refusal, player.step forward = (player, .error (.refused refusal))) ∨
    ∃ loaded index, player.loaded = some loaded ∧
      index = (if forward then loaded.index + 1 else loaded.index - 1) ∧
      index ≠ loaded.index ∧ player.step forward = player.setPlaylistItem index := by
  rw [step]
  cases hloaded : player.loaded with
  | none => exact .inl ⟨_, rfl⟩
  | some loaded =>
    cases forward with
    | true => exact .inr ⟨loaded, _, rfl, rfl, by simp, rfl⟩
    | false =>
      by_cases hfirst : loaded.index = 0
      · exact .inl ⟨_, by dsimp only; rw [if_neg Bool.false_ne_true, if_pos hfirst]⟩
      · refine .inr ⟨loaded, loaded.index - 1, rfl, rfl, by omega, ?_⟩
        dsimp only
        rw [if_neg Bool.false_ne_true, if_neg hfirst]

def endUpdates : PlaybackEnd → List ReceiverUpdate
  | .finished => []
  | .failed cause detail => [.error ("playback failed: " ++ detail) (errorKind cause)]

/-- What the end of an item produces when no other follows. -/
def stopped (player : Player) (ended : ResolvedItem) (ending : PlaybackEnd) : Applied where
  events := []
  updates := .mediaItem .end ended.echo :: endUpdates ending ++
    [.playback (({ player with state := .idle } : Player).snapshot none)]

/-- The receiver's own move to another item, told to version 4 senders. -/
def announcement (loaded : Loaded) : List ReceiverUpdate :=
  if loaded.v4Queue then [.queueSelectRelay (.index (.ofNat loaded.index)) true] else []

theorem mediaEnded_cases (hplayer : player.WellFormed) (ending : PlaybackEnd) :
    (player.loaded = none ∧ player.mediaEnded ending = (player, .ok .nothing)) ∨
    ∃ loaded, ∃ h : loaded.WellFormed, player.loaded = some loaded ∧
      ((∃ hnext : ({ loaded with index := loaded.index + 1 } : Loaded).WellFormed,
          player.mediaEnded ending = (player.playing { loaded with index := loaded.index + 1 },
            .ok ⟨(player.jumped _ hnext).events,
              .mediaItem .end (loaded.current h).echo :: (player.jumped _ hnext).updates ++
                announcement { loaded with index := loaded.index + 1 }⟩)) ∨
        player.mediaEnded ending =
          ({ player with state := .idle }, .ok (player.stopped (loaded.current h) ending))) := by
  obtain ⟨_ | loaded, state, volume⟩ := player
  · exact .inl ⟨rfl, rfl⟩
  · have hwf := hplayer.loaded loaded rfl
    refine .inr ⟨loaded, hwf, rfl, ?_⟩
    rw [mediaEnded]
    dsimp only
    rw [itemAt_eq hwf]
    dsimp only
    cases ending with
    | finished =>
      dsimp only
      by_cases hadvance : (loaded.autoplay && loaded.index + 1 < loaded.queue.length) = true
      · have hindex : loaded.index + 1 < loaded.queue.length :=
          of_decide_eq_true ((Bool.and_eq_true _ _ ▸ hadvance).2)
        refine .inl ⟨hwf.select hindex, ?_⟩
        rw [if_pos hadvance, jump_eq _ (hwf.select hindex)]
        rfl
      · rw [if_neg hadvance]
        exact .inr rfl
    | failed cause detail => exact .inr rfl

end Player

end Castaway.FCast
