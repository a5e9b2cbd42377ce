import Castaway.FCast.Queue
import Castaway.FCast.SessionV4
import Mathlib.Data.List.InsertIdx

/-!
# Operations without the headers

A request header is for the fetch alone.  `bare` takes the headers out of
everything that has some.  An operation of the player does the same to a bare
player, up to the headers, and an update is told to a version 4 sender, or to
one of version 1 or 2, as its bare form would be.

## Strategy

Two results are the same without headers when their `outcome` is.  Each
operation is first compared with itself on the bare player
(`queueRemoveV4_bare`, `jump_bare`, `apply_bare`); two players that differ in
headers alone then have the same bare player between them (`outcome_apply`).
Loads and insertions resolve their items first, so these are resolved bare as
well (`resolveV4_bare`, `parseLoadV4_bare`).
-/

namespace Castaway.FCast

open Castaway.Core (PlaybackEnd)
open List

variable {lib : Libraries}

/-! ## Taking the headers out -/

/-- `bare` keeps everything but the request headers. -/
def PlayMessage.bare (play : PlayMessage) : PlayMessage := { play with headers := none }

def ResolvedItem.bare (item : ResolvedItem) : ResolvedItem :=
  { item with request := { item.request with headers := [] }, echo := item.echo.bare }

def FlatMediaItem.bare (item : FlatMediaItem) : FlatMediaItem := { item with headers := none }

def FlatQueueItem.bare (item : FlatQueueItem) : FlatQueueItem :=
  { item with mediaItem := item.mediaItem.bare }

def FlatSource.bare : FlatSource → FlatSource
  | .single item => .single item.bare
  | .queue items startIndex autoplay =>
    .queue (items.map FlatQueueItem.bare) startIndex autoplay

def RawPacket.bare : RawPacket → RawPacket
  | .load source => .load source.bare
  | .queueInsert item position => .queueInsert item.bare position

def Loaded.bare (loaded : Loaded) : Loaded :=
  { loaded with
    play := loaded.play.bare
    queue := loaded.queue.map ResolvedItem.bare
    v4SingleRaw := loaded.v4SingleRaw.map RawPacket.bare }

def Player.bare (player : Player) : Player :=
  { player with loaded := player.loaded.map Loaded.bare }

def ReceiverUpdate.bare : ReceiverUpdate → ReceiverUpdate
  | .playChanged play => .playChanged (play.map PlayMessage.bare)
  | .mediaItem kind item => .mediaItem kind item.bare
  | .v4Load raw => .v4Load raw.bare
  | .queueInsertRelay raw => .queueInsertRelay raw.bare
  | other => other

theorem RawPacket.bare_bare (raw : RawPacket) : raw.bare.bare = raw.bare := by
  cases raw with
  | load source =>
    cases source with
    | single item => rfl
    | queue items startIndex autoplay =>
      simp only [RawPacket.bare, FlatSource.bare, map_map]
      rfl
  | queueInsert item position => rfl

theorem Loaded.bare_bare (loaded : Loaded) : loaded.bare.bare = loaded.bare := by
  simp only [Loaded.bare, map_map, Option.map_map]
  congr 1
  cases loaded.v4SingleRaw with
  | none => rfl
  | some raw => exact congrArg some raw.bare_bare

theorem Player.bare_bare (player : Player) : player.bare.bare = player.bare := by
  obtain ⟨_ | loaded, state, volume⟩ := player
  · rfl
  · simp only [Player.bare, Option.map_some, Loaded.bare_bare]

/-- What an operation tells, with the headers taken out. -/
def told (result : Except Fault Applied) : Except Fault (List ReceiverUpdate) :=
  result.map fun applied => applied.updates.map ReceiverUpdate.bare

/-- What an operation comes to, without headers and without its events. -/
def outcome (result : Player × Except Fault Applied) :
    Player × Except Fault (List ReceiverUpdate) :=
  (result.1.bare, told result.2)

/-- A relay is stripped of its headers anyway. -/
theorem RawPacket.strippedRelayFrame_bare (raw : RawPacket) :
    strippedRelayFrame raw.bare = strippedRelayFrame raw := by
  cases raw with
  | load source =>
    cases source with
    | single item => rfl
    | queue items startIndex autoplay =>
      simp only [RawPacket.bare, FlatSource.bare, strippedRelayFrame, FlatSource.strip,
        map_map]
      rfl
  | queueInsert item position => rfl

/-- A version 4 sender is told no headers. -/
theorem v4UpdateFrame_bare (update : ReceiverUpdate) :
    v4UpdateFrame update.bare = v4UpdateFrame update := by
  cases update with
  | playChanged play => cases play <;> rfl
  | v4Load raw | queueInsertRelay raw => exact congrArg some raw.strippedRelayFrame_bare
  | _ => rfl

/-- Nor is one of version 1 or 2. -/
theorem frameUpdate_bare {session : Session} (h : session.version ≠ some .v3) (wallMs : ℕ)
    (update : ReceiverUpdate) :
    session.frameUpdate wallMs update.bare = session.frameUpdate wallMs update := by
  obtain ⟨_ | version, lastRx, ping, subscriptions, peer⟩ := session
  · rfl
  · cases version with
    | v1 | v2 => cases update <;> rfl
    | v3 => exact absurd rfl h

/-! ## Operations on a bare player -/

variable {player player₁ player₂ : Player} {loaded : Loaded}

/-- Taking the headers out of a queue commutes with looking an item up. -/
theorem itemAt_bare (queue : List ResolvedItem) (index : ℕ) :
    itemAt (queue.map ResolvedItem.bare) index = (itemAt queue index).map ResolvedItem.bare := by
  rw [itemAt, itemAt, getElem?_map]
  cases queue[index]? <;> rfl

namespace Player

theorem upNext_bare (loaded : Loaded) : upNext loaded.bare = upNext loaded := by
  rw [upNext, upNext, itemsFrom, itemsFrom]
  simp only [Loaded.bare, length_map]
  split
  · simp only [Except.map, ← map_drop, map_map]
    rfl
  · rfl

theorem snapshot_bare (player : Player) (progress : Option PlaybackProgress) :
    player.bare.snapshot progress = player.snapshot progress := by
  obtain ⟨_ | loaded, state, volume⟩ := player
  · rfl
  · simp only [snapshot, itemIndex, bare, Option.map_some, Option.filter_some, Loaded.bare]
    split <;> rfl

/-- What is announced of an item that starts is the same without headers. -/
theorem startCurrent_bare (player : Player) :
    told player.bare.startCurrent = told player.startCurrent := by
  obtain ⟨_ | loaded, state, volume⟩ := player
  · rfl
  · have hsnapshot := snapshot_bare ⟨some loaded, state, volume⟩ none
    have hitem := itemAt_bare loaded.queue loaded.index
    simp only [startCurrent, bare, Option.map_some, upNext_bare]
    change told (itemAt (loaded.queue.map ResolvedItem.bare) loaded.index >>= _) = _
    rw [hitem]
    cases itemAt loaded.queue loaded.index with
    | error fault => rfl
    | ok item =>
      cases upNext loaded with
      | error fault => rfl
      | ok next =>
        simp only [bare, Option.map_some] at hsnapshot
        simp only [told, Except.map, ok_bind, pure, Except.pure, hsnapshot]
        rfl

/-- So a jump to another item of the queue comes to the same. -/
theorem jump_bare (player : Player) (loaded : Loaded) (index : ℕ) :
    outcome (player.bare.jump loaded.bare index) = outcome (player.jump loaded index) := by
  have hstart := startCurrent_bare
    { player with loaded := some { loaded with index }, state := .playing }
  exact Prod.ext (bare_bare { player with loaded := some { loaded with index }, state := .playing })
    hstart

/-- And so does an edit of the queue, whatever it relays. -/
theorem edited_bare (player : Player) (loaded : Loaded) {relay₁ relay₂ : ReceiverUpdate}
    (hrelay : relay₁.bare = relay₂.bare) :
    outcome (player.bare.edited loaded.bare relay₁) = outcome (player.edited loaded relay₂) := by
  have hsnapshot := snapshot_bare { player with loaded := some loaded } none
  have hplayer := bare_bare { player with loaded := some loaded }
  simp only [edited, upNext_bare]
  cases upNext loaded with
  | error fault => exact Prod.ext hplayer rfl
  | ok next =>
    refine Prod.ext hplayer ?_
    change Except.ok [relay₁.bare, _] = Except.ok [relay₂.bare, _]
    rw [hrelay]
    exact congrArg (fun snapshot => Except.ok [relay₂.bare, .playback snapshot]) hsnapshot

theorem positionIndex_bare (loaded : Loaded) (position : QueuePosition) (insert : Bool) :
    positionIndex loaded.bare position insert = positionIndex loaded position insert := by
  simp only [positionIndex, Loaded.bare, length_map]

theorem v4QueueMut_bare (player : Player) :
    player.bare.v4QueueMut = player.v4QueueMut.map Loaded.bare := by
  obtain ⟨_ | loaded, state, volume⟩ := player
  · rfl
  · simp only [v4QueueMut, bare, Option.map_some, Option.filter_some]
    cases hqueue : loaded.v4Queue with
    | false | true => simp [Loaded.bare, hqueue, Except.map]

/-- A result with updates put before and after its own. -/
def extended (first last : List ReceiverUpdate) (result : Player × Except Fault Applied) :
    Player × Except Fault Applied :=
  (result.1, result.2.map fun applied =>
    { applied with updates := first ++ applied.updates ++ last })

/-- Updates that agree without headers may be put around a result. -/
theorem outcome_extended {result₁ result₂ : Player × Except Fault Applied}
    (h : outcome result₁ = outcome result₂) {first₁ first₂ : List ReceiverUpdate}
    (hfirst : first₁.map ReceiverUpdate.bare = first₂.map ReceiverUpdate.bare)
    (last : List ReceiverUpdate) :
    outcome (extended first₁ last result₁) = outcome (extended first₂ last result₂) := by
  obtain ⟨after₁, told₁⟩ := result₁
  obtain ⟨after₂, told₂⟩ := result₂
  obtain ⟨hplayer, htold⟩ := Prod.mk.inj h
  refine Prod.ext hplayer ?_
  cases told₁ with
  | error fault =>
    cases told₂ with
    | error fault' => exact htold
    | ok applied => cases htold
  | ok applied₁ =>
    cases told₂ with
    | error fault => cases htold
    | ok applied₂ =>
      have hupdates := Except.ok.inj htold
      simp only [outcome, told, extended, Except.map, map_append, hfirst, hupdates]

/-! ### Edits of the queue -/

theorem Loaded.removed_bare (loaded : Loaded) (index : ℕ) :
    loaded.bare.removed index = (loaded.removed index).bare := by
  simp only [Loaded.removed, Loaded.bare, eraseIdx_map]
  rfl

theorem Loaded.inserted_bare (loaded : Loaded) (index : ℕ) (item : ResolvedItem) :
    loaded.bare.inserted index item.bare = (loaded.inserted index item).bare := by
  simp only [Loaded.inserted, Loaded.bare, map_insertIdx]
  rfl

/-- The load with the index it gets before the queue changes. -/
theorem outcome_reindexed (player : Player) (loaded : Loaded) (index : ℕ) (fault : Fault) :
    outcome ({ player.bare with loaded := some { loaded.bare with index } }, .error fault) =
      outcome ({ player with loaded := some { loaded with index } }, .error fault) :=
  Prod.ext (bare_bare { player with loaded := some { loaded with index } }) rfl

/-- A removal is refused, faults or goes through the same without headers. -/
theorem queueRemoveV4_bare (player : Player) (position : QueuePosition) :
    outcome (player.bare.queueRemoveV4 position) = outcome (player.queueRemoveV4 position) := by
  simp only [queueRemoveV4, v4QueueMut_bare]
  cases player.v4QueueMut with
  | error refusal => exact Prod.ext player.bare_bare rfl
  | ok loaded =>
    simp only [Except.map, positionIndex_bare]
    cases positionIndex loaded position false with
    | error refusal => exact Prod.ext player.bare_bare rfl
    | ok index =>
      dsimp only
      by_cases hcurrent : index = loaded.index
      · rw [if_pos hcurrent, if_pos (show index = loaded.bare.index from hcurrent)]
        exact Prod.ext player.bare_bare rfl
      · rw [if_neg hcurrent, if_neg (show ¬ index = loaded.bare.index from hcurrent)]
        by_cases hindex : index < loaded.queue.length
        · have hindex' : index < loaded.bare.queue.length := by
            rwa [Loaded.bare, length_map]
          simp only [removeItem, if_pos hindex, if_pos hindex']
          have hedited : outcome (player.bare.edited (loaded.removed index).bare
                (.queueRemoveRelay position)) =
              outcome (player.edited (loaded.removed index) (.queueRemoveRelay position)) :=
            edited_bare player _ rfl
          rwa [← Loaded.removed_bare] at hedited
        · have hindex' : ¬ index < loaded.bare.queue.length := by
            rwa [Loaded.bare, length_map]
          simp only [removeItem, if_neg hindex, if_neg hindex']
          exact outcome_reindexed player loaded _ .panic

/-- An insertion, once its item has been resolved or refused. -/
def insertResolved (player : Player) (resolved : Except Refusal ResolvedItem)
    (position : QueuePosition) (raw : RawPacket) : Player × Except Fault Applied :=
  match resolved with
  | .error refusal => (player, .error (.refused refusal))
  | .ok resolved =>
    match player.v4QueueMut with
    | .error refusal => (player, .error (.refused refusal))
    | .ok loaded =>
      if 256 ≤ loaded.queue.length then
        (player, .error (.refused ⟨"the queue already holds 256 items", .queueFull⟩))
      else
        match positionIndex loaded position true with
        | .error refusal => (player, .error (.refused refusal))
        | .ok index =>
          let current := if index ≤ loaded.index then loaded.index + 1 else loaded.index
          match insertItem loaded.queue index resolved with
          | .error fault =>
            ({ player with loaded := some { loaded with index := current } },
              .error fault)
          | .ok queue =>
            player.edited { loaded with queue, index := current } (.queueInsertRelay raw)

theorem queueInsertV4_eq (player : Player) (item : V4MediaItem) (position : QueuePosition)
    (raw : RawPacket) : player.queueInsertV4 lib item position raw =
      player.insertResolved (ResolvedItem.resolveV4 lib item "inserted item") position raw := rfl

/-- An insertion of a bare item into a bare queue is the insertion made bare. -/
theorem insertResolved_bare (player : Player) (resolved : Except Refusal ResolvedItem)
    (position : QueuePosition) (raw : RawPacket) :
    outcome (player.bare.insertResolved (resolved.map ResolvedItem.bare) position raw.bare) =
      outcome (player.insertResolved resolved position raw) := by
  cases resolved with
  | error refusal => exact Prod.ext player.bare_bare rfl
  | ok resolved =>
    simp only [insertResolved, v4QueueMut_bare, Except.map]
    cases player.v4QueueMut with
    | error refusal => exact Prod.ext player.bare_bare rfl
    | ok loaded =>
      have hlength : loaded.bare.queue.length = loaded.queue.length := by
        rw [Loaded.bare, length_map]
      simp only [positionIndex_bare, hlength]
      by_cases hfull : 256 ≤ loaded.queue.length
      · simp only [if_pos hfull]
        exact Prod.ext player.bare_bare rfl
      · simp only [if_neg hfull]
        cases positionIndex loaded position true with
        | error refusal => exact Prod.ext player.bare_bare rfl
        | ok index =>
          by_cases hindex : index ≤ loaded.queue.length
          · simp only [insertItem, hlength, if_pos hindex]
            have hrelay : (ReceiverUpdate.queueInsertRelay raw.bare).bare =
                (ReceiverUpdate.queueInsertRelay raw).bare :=
              congrArg ReceiverUpdate.queueInsertRelay raw.bare_bare
            have hedited := edited_bare player (loaded.inserted index resolved) hrelay
            rwa [← Loaded.inserted_bare] at hedited
          · simp only [insertItem, hlength, if_neg hindex]
            exact outcome_reindexed player loaded _ .panic

/-! ### Selections and the end of an item -/

theorem queueSelectV4_eq {position : QueuePosition} {index : ℕ}
    (hqueue : player.v4QueueMut = .ok loaded)
    (hposition : positionIndex loaded position false = .ok index) : player.queueSelectV4 position =
      extended [] [.queueSelectRelay position false] (player.jump loaded index) := by
  simp only [queueSelectV4, hqueue, hposition]
  rcases player.jump loaded index with ⟨after, fault | applied⟩ <;> rfl

/-- A selection is a jump, with its own relay behind what the jump tells. -/
theorem queueSelectV4_bare (player : Player) (position : QueuePosition) :
    outcome (player.bare.queueSelectV4 position) = outcome (player.queueSelectV4 position) := by
  have hbare := v4QueueMut_bare player
  cases hqueue : player.v4QueueMut with
  | error refusal =>
    rw [hqueue] at hbare
    simp only [queueSelectV4, hqueue, hbare, Except.map]
    exact Prod.ext player.bare_bare rfl
  | ok loaded =>
    rw [hqueue] at hbare
    have hsame := positionIndex_bare loaded position false
    cases hposition : positionIndex loaded position false with
    | error refusal =>
      simp only [queueSelectV4, hqueue, hbare, Except.map, hsame, hposition]
      exact Prod.ext player.bare_bare rfl
    | ok index =>
      rw [queueSelectV4_eq hqueue hposition, queueSelectV4_eq hbare (hsame.trans hposition)]
      exact outcome_extended (jump_bare player loaded index) rfl _

theorem bare_loaded (h : player.loaded = some loaded) : player.bare.loaded = some loaded.bare := by
  rw [bare, h]
  rfl

theorem bare_loaded_none (h : player.loaded = none) : player.bare.loaded = none := by
  rw [bare, h]
  rfl

theorem length_bare (loaded : Loaded) : loaded.bare.queue.length = loaded.queue.length :=
  length_map _

theorem setPlaylistItem_bare (player : Player) (index : ℕ) :
    outcome (player.bare.setPlaylistItem index) = outcome (player.setPlaylistItem index) := by
  cases hloaded : player.loaded with
  | none =>
    simp only [setPlaylistItem, hloaded, bare_loaded_none hloaded]
    exact Prod.ext player.bare_bare rfl
  | some loaded =>
    have hsame : loaded.bare.isPlaylist = loaded.isPlaylist := rfl
    simp only [setPlaylistItem, hloaded, bare_loaded hloaded, hsame, length_bare]
    split
    · exact Prod.ext player.bare_bare rfl
    · split
      · exact Prod.ext player.bare_bare rfl
      · exact jump_bare player loaded index

theorem step_bare (player : Player) (forward : Bool) :
    outcome (player.bare.step forward) = outcome (player.step forward) := by
  cases hloaded : player.loaded with
  | none =>
    simp only [step, hloaded, bare_loaded_none hloaded]
    exact Prod.ext player.bare_bare rfl
  | some loaded =>
    have hsame : loaded.bare.index = loaded.index := rfl
    simp only [step, hloaded, bare_loaded hloaded, hsame]
    split
    · exact setPlaylistItem_bare player _
    · split
      · exact Prod.ext player.bare_bare rfl
      · exact setPlaylistItem_bare player _

/-- The receiver's own advance is a jump, told after the end of the item before.
-/
theorem mediaEnded_advance (hloaded : player.loaded = some loaded) {ended : ResolvedItem}
    (hended : itemAt loaded.queue loaded.index = .ok ended)
    (hnext : (loaded.autoplay && loaded.index + 1 < loaded.queue.length) = true) :
    player.mediaEnded .finished = extended [.mediaItem .end ended.echo]
      (announcement { loaded with index := loaded.index + 1 })
      (player.jump loaded (loaded.index + 1)) := by
  simp only [mediaEnded, hloaded, hended, hnext, if_true]
  rcases player.jump loaded (loaded.index + 1) with ⟨after, fault | applied⟩ <;> rfl

/-- An end that nothing follows leaves the player idle. -/
theorem mediaEnded_stop (hloaded : player.loaded = some loaded) {ended : ResolvedItem}
    (hended : itemAt loaded.queue loaded.index = .ok ended) {ending : PlaybackEnd}
    (hlast : ending = .finished →
      (loaded.autoplay && loaded.index + 1 < loaded.queue.length) = false) :
    player.mediaEnded ending =
      ({ player with state := .idle }, .ok (player.stopped ended ending)) := by
  obtain ⟨_, state, volume⟩ := player
  cases hloaded
  cases ending with
  | finished =>
    simp only [mediaEnded, hended, hlast rfl]
    rfl
  | failed cause detail =>
    simp only [mediaEnded, hended]
    rfl

theorem outcome_stopped (player : Player) (ended : ResolvedItem) (ending : PlaybackEnd) :
    outcome ({ player.bare with state := .idle }, .ok (player.bare.stopped ended.bare ending)) =
      outcome ({ player with state := .idle }, .ok (player.stopped ended ending)) := by
  have hsnapshot : ({ player.bare with state := .idle } : Player).snapshot none =
      ({ player with state := .idle } : Player).snapshot none :=
    snapshot_bare { player with state := .idle } none
  refine Prod.ext (bare_bare { player with state := .idle }) ?_
  simp only [outcome, told, stopped, Except.map, hsnapshot]
  rfl

/-- The end of an item advances or stops a bare player alike. -/
theorem mediaEnded_bare (player : Player) (ending : PlaybackEnd) :
    outcome (player.bare.mediaEnded ending) = outcome (player.mediaEnded ending) := by
  cases hloaded : player.loaded with
  | none =>
    simp only [mediaEnded, hloaded, bare_loaded_none hloaded]
    exact Prod.ext player.bare_bare rfl
  | some loaded =>
    have hitem := itemAt_bare loaded.queue loaded.index
    have hsame : (loaded.bare.autoplay && loaded.bare.index + 1 < loaded.bare.queue.length) =
        (loaded.autoplay && loaded.index + 1 < loaded.queue.length) := by
      rw [length_bare]
      rfl
    cases hended : itemAt loaded.queue loaded.index with
    | error fault =>
      rw [hended] at hitem
      have hbare : itemAt loaded.bare.queue loaded.bare.index = .error fault := hitem
      simp only [mediaEnded, hloaded, bare_loaded hloaded, hended, hbare]
      exact Prod.ext player.bare_bare rfl
    | ok ended =>
      rw [hended] at hitem
      have hbare : itemAt loaded.bare.queue loaded.bare.index = .ok ended.bare := hitem
      by_cases hnext : ending = .finished ∧
          (loaded.autoplay && loaded.index + 1 < loaded.queue.length) = true
      · obtain ⟨rfl, hnext⟩ := hnext
        rw [mediaEnded_advance hloaded hended hnext,
          mediaEnded_advance (bare_loaded hloaded) hbare (hsame.trans hnext)]
        have hfirst : [ReceiverUpdate.mediaItem .end ended.bare.echo].map
            ReceiverUpdate.bare = [ReceiverUpdate.mediaItem .end ended.echo].map
              ReceiverUpdate.bare := rfl
        exact outcome_extended (jump_bare player loaded _) hfirst _
      · have hlast : ending = .finished →
            (loaded.autoplay && loaded.index + 1 < loaded.queue.length) = false :=
          fun h => (Bool.not_eq_true _).mp fun htrue => hnext ⟨h, htrue⟩
        rw [mediaEnded_stop hloaded hended hlast,
          mediaEnded_stop (bare_loaded hloaded) hbare fun h => hsame.trans (hlast h)]
        exact outcome_stopped player ended ending

/-! ### Transport -/

/-- The operation neither loads media nor puts in an item. -/
def keepsMedia : Operation → Bool
  | .load _ | .loadV4 _ _ | .queueInsertV4 .. => false
  | _ => true

/-- Results are the same when the bare players and what is told are. -/
theorem outcome_done {result₁ result₂ : Player × Applied}
    (hplayer : result₁.1.bare = result₂.1.bare) (hupdates : result₁.2.updates = result₂.2.updates) :
    outcome (done result₁) = outcome (done result₂) := by
  refine Prod.ext hplayer ?_
  change Except.ok (result₁.2.updates.map _) = Except.ok (result₂.2.updates.map _)
  rw [hupdates]

section

variable (player : Player)

theorem pause_bare :
    outcome (done player.bare.pause) = outcome (done player.pause) := by
  have hsnapshot := snapshot_bare { player with state := .paused } none
  unfold pause
  by_cases h : player.state ≠ .playing
  · rw [if_pos h, if_pos (show player.bare.state ≠ .playing from h)]
    exact outcome_done player.bare_bare rfl
  · rw [if_neg h, if_neg (show ¬ player.bare.state ≠ .playing from h)]
    exact outcome_done (bare_bare { player with state := .paused })
      (congrArg (fun snapshot => [ReceiverUpdate.playback snapshot]) hsnapshot)

theorem resume_bare :
    outcome (done player.bare.resume) = outcome (done player.resume) := by
  have hsnapshot := snapshot_bare { player with state := .playing } none
  unfold resume
  by_cases h : player.state ≠ .paused
  · rw [if_pos h, if_pos (show player.bare.state ≠ .paused from h)]
    exact outcome_done player.bare_bare rfl
  · rw [if_neg h, if_neg (show ¬ player.bare.state ≠ .paused from h)]
    exact outcome_done (bare_bare { player with state := .playing })
      (congrArg (fun snapshot => [ReceiverUpdate.playback snapshot]) hsnapshot)

theorem isNone_bare : player.bare.loaded.isNone = player.loaded.isNone := by
  rw [bare, Option.isNone_map]

theorem stop_bare :
    outcome (done player.bare.stop) = outcome (done player.stop) := by
  unfold stop
  rw [isNone_bare]
  split
  · exact outcome_done player.bare_bare rfl
  · exact outcome_done rfl rfl

theorem seek_bare (target : ℕ) :
    outcome (done (player.bare.seek target)) = outcome (done (player.seek target)) := by
  have hsnapshot := snapshot_bare player (some ⟨target, none⟩)
  unfold seek
  rw [isNone_bare]
  split
  · exact outcome_done player.bare_bare rfl
  · exact outcome_done player.bare_bare
      (congrArg (fun snapshot => [ReceiverUpdate.playback snapshot, .progress target none])
        hsnapshot)

end

/-- **Headers are for the fetch alone**: an operation on the media that is
loaded does the same without them. -/
theorem apply_bare (lib : Libraries) (player : Player) {op : Operation}
    (hop : keepsMedia op = true) :
    outcome (player.bare.apply lib op) = outcome (player.apply lib op) := by
  cases op with
  | load _ | loadV4 _ _ | queueInsertV4 _ _ _ => cases hop
  | queueRemoveV4 position => exact queueRemoveV4_bare player position
  | queueSelectV4 position => exact queueSelectV4_bare player position
  | setPlaylistItem index => exact setPlaylistItem_bare player index
  | step forward => exact step_bare player forward
  | pause => exact pause_bare player
  | resume => exact resume_bare player
  | stop => exact stop_bare player
  | seek target => exact seek_bare player target
  | setVolume volume => exact outcome_done (bare_bare { player with volume }) rfl
  | setSpeed speed shown =>
    simp only [apply, setSpeed]
    split <;> exact Prod.ext player.bare_bare rfl
  | mediaEnded ending => exact mediaEnded_bare player ending

/-! ### Loads and insertions -/

/-- A version 4 load, once its source is resolved. -/
def loadResolved (player : Player)
    (parsed : Except Refusal (List ResolvedItem × ℕ × Bool × Bool × Option RawPacket × Bool))
    (raw : RawPacket) : Player × Except Fault Applied :=
  match parsed with
  | .error refusal => (player, .error (.refused refusal))
  | .ok (queue, index, isPlaylist, autoplay, v4SingleRaw, v4Queue) =>
    match itemAt queue index with
    | .error fault => (player, .error fault)
    | .ok item =>
      (player.withVolume item.echo.volume).begin
        { play := item.echo, queue, index, isPlaylist, autoplay, v4SingleRaw, v4Queue }
        [.playChanged (some item.echo), .v4Load raw]

theorem loadV4_eq (player : Player) (source : LoadSource) (raw : RawPacket) :
    player.loadV4 lib source raw = player.loadResolved (parseLoadV4 lib source raw) raw := rfl

/-- A load that begins tells the same, without headers. -/
theorem begin_bare (player : Player) (loaded : Loaded) {relayed₁ relayed₂ : List ReceiverUpdate}
    (hrelayed : relayed₁.map ReceiverUpdate.bare = relayed₂.map ReceiverUpdate.bare) :
    outcome (player.bare.begin loaded.bare relayed₁) = outcome (player.begin loaded relayed₂) := by
  have hplayer := bare_bare { player with loaded := some loaded, state := .playing }
  have hstart : told ({ player.bare with loaded := some loaded.bare, state := .playing } :
        Player).startCurrent =
      told ({ player with loaded := some loaded, state := .playing } : Player).startCurrent :=
    startCurrent_bare { player with loaded := some loaded, state := .playing }
  simp only [begin]
  cases hafter : ({ player with loaded := some loaded, state := .playing } :
      Player).startCurrent with
  | error fault =>
    rw [hafter] at hstart
    cases hbare : ({ player.bare with loaded := some loaded.bare, state := .playing } :
        Player).startCurrent with
    | error fault' =>
      rw [hbare] at hstart
      exact Prod.ext hplayer hstart
    | ok applied =>
      rw [hbare] at hstart
      cases hstart
  | ok applied =>
    rw [hafter] at hstart
    cases hbare : ({ player.bare with loaded := some loaded.bare, state := .playing } :
        Player).startCurrent with
    | error fault =>
      rw [hbare] at hstart
      cases hstart
    | ok applied' =>
      rw [hbare] at hstart
      have hupdates := Except.ok.inj hstart
      refine Prod.ext hplayer ?_
      simp only [outcome, told, Except.map, map_append, hrelayed, hupdates]
      rfl

theorem withVolume_bare (player : Player) (volume : Option Double) :
    player.bare.withVolume volume = (player.withVolume volume).bare := rfl

/-- What a version 4 load resolves to, without headers. -/
def bareLoad (parsed : List ResolvedItem × ℕ × Bool × Bool × Option RawPacket × Bool) :
    List ResolvedItem × ℕ × Bool × Bool × Option RawPacket × Bool :=
  (parsed.1.map ResolvedItem.bare, parsed.2.1, parsed.2.2.1, parsed.2.2.2.1,
    parsed.2.2.2.2.1.map RawPacket.bare, parsed.2.2.2.2.2)

/-- A load, once it has been parsed or refused, comes to the same when all is
bare. -/
theorem loadResolved_bare (player : Player)
    (parsed : Except Refusal (List ResolvedItem × ℕ × Bool × Bool × Option RawPacket × Bool))
    (raw : RawPacket) : outcome (player.bare.loadResolved (parsed.map bareLoad) raw.bare) =
      outcome (player.loadResolved parsed raw) := by
  cases parsed with
  | error refusal => exact Prod.ext player.bare_bare rfl
  | ok parsed =>
    obtain ⟨queue, index, isPlaylist, autoplay, v4SingleRaw, v4Queue⟩ := parsed
    simp only [loadResolved, Except.map, bareLoad, itemAt_bare]
    cases itemAt queue index with
    | error fault => exact Prod.ext player.bare_bare rfl
    | ok item =>
      have hrelayed : [ReceiverUpdate.playChanged (some item.bare.echo), .v4Load raw.bare].map
            ReceiverUpdate.bare =
          [ReceiverUpdate.playChanged (some item.echo), .v4Load raw].map
            ReceiverUpdate.bare := by
        simp only [map_cons, ReceiverUpdate.bare, raw.bare_bare]
        rfl
      exact begin_bare (player.withVolume item.echo.volume)
        ⟨item.echo, queue, index, isPlaylist, autoplay, v4SingleRaw, v4Queue⟩ hrelayed

/-- **The same operation** on two players that differ in headers alone leaves
them so, and differs in headers alone in what it tells. -/
theorem outcome_apply (lib : Libraries) (h : player₁.bare = player₂.bare) (op : Operation) :
    outcome (player₁.apply lib op) = outcome (player₂.apply lib op) := by
  cases hop : keepsMedia op with
  | true => rw [← apply_bare lib player₁ hop, h, apply_bare lib player₂ hop]
  | false =>
    cases op with
    | load play =>
      simp only [apply, load]
      cases parseLoad lib play with
      | error refusal => exact Prod.ext h rfl
      | ok parsed =>
        dsimp only
        rw [← begin_bare _ _ rfl, ← withVolume_bare, h, withVolume_bare, begin_bare _ _ rfl]
    | loadV4 source raw =>
      simp only [apply, loadV4_eq]
      rw [← loadResolved_bare, h, loadResolved_bare]
    | queueInsertV4 item position raw =>
      simp only [apply, queueInsertV4_eq]
      rw [← insertResolved_bare, h, insertResolved_bare]
    | _ => cases hop

end Player

/-! ## Resolving without headers -/

/-- An item, and below a source, as a sender without headers would have sent it.
-/
def V4MediaItem.bare (item : V4MediaItem) : V4MediaItem := { item with headers := [] }

def LoadSource.bare : LoadSource → LoadSource
  | .single item => .single item.bare
  | .queue items startIndex autoplay =>
    .queue (items.map fun item => (item.1.bare, item.2)) startIndex autoplay

/-- What resolves with headers resolves without them, to the bare item. -/
theorem resolveV4_bare {item : V4MediaItem} {what : String} {resolved : ResolvedItem}
    (h : ResolvedItem.resolveV4 lib item what = .ok resolved) :
    ResolvedItem.resolveV4 lib item.bare what = .ok resolved.bare := by
  unfold ResolvedItem.resolveV4 at h ⊢
  simp only [V4MediaItem.bare]
  cases huri : MediaUri.parse lib item.sourceUrl with
  | error e =>
    rw [huri] at h
    cases h
  | ok uri =>
    rw [huri] at h
    dsimp only at h ⊢
    cases hheaders : requestHeaders item.headers what with
    | error refusal =>
      rw [hheaders] at h
      cases h
    | ok headers =>
      rw [hheaders] at h
      cases h
      rfl

/-- Items that resolve one by one without headers resolve so in a row. -/
theorem resolveFrom_bare {α : Type} {resolve : α → ℕ → Except Refusal ResolvedItem} {f : α → α}
    (hresolve : ∀ item i resolved, resolve item i = .ok resolved →
      resolve (f item) i = .ok resolved.bare)
    {items : List α} {start : ℕ} {resolved : List ResolvedItem}
    (h : (items.zipIdx start).mapM (fun entry => resolve entry.1 entry.2) = .ok resolved) :
    ((items.map f).zipIdx start).mapM (fun entry => resolve entry.1 entry.2) =
      .ok (resolved.map ResolvedItem.bare) := by
  induction items generalizing start resolved with
  | nil =>
    cases h
    rfl
  | cons item items ih =>
    rw [zipIdx_cons, mapM_cons] at h
    obtain ⟨first, hfirst, h⟩ := bind_eq_ok.mp h
    obtain ⟨rest, hrest, h⟩ := bind_eq_ok.mp h
    cases h
    rw [map_cons, zipIdx_cons, mapM_cons, hresolve _ _ _ hfirst, ok_bind,
      ih hrest]
    rfl

theorem resolveAll_bare {α : Type} {resolve : α → ℕ → Except Refusal ResolvedItem} {f : α → α}
    (hresolve : ∀ item i resolved, resolve item i = .ok resolved →
      resolve (f item) i = .ok resolved.bare) {items : List α} {resolved : List ResolvedItem}
    (h : resolveAll resolve items = .ok resolved) :
    resolveAll resolve (items.map f) = .ok (resolved.map ResolvedItem.bare) :=
  resolveFrom_bare hresolve h

/-- A load that is accepted is accepted without its headers. -/
theorem parseLoadV4_bare {source : LoadSource} {raw : RawPacket}
    {parsed : List ResolvedItem × ℕ × Bool × Bool × Option RawPacket × Bool}
    (h : Player.parseLoadV4 lib source raw = .ok parsed) :
    Player.parseLoadV4 lib source.bare raw.bare = .ok (Player.bareLoad parsed) := by
  cases source with
  | single item =>
    simp only [Player.parseLoadV4, LoadSource.bare] at h ⊢
    cases hitem : ResolvedItem.resolveV4 lib item "play request" with
    | error refusal =>
      rw [hitem] at h
      cases h
    | ok resolved =>
      rw [hitem] at h
      cases h
      rw [resolveV4_bare hitem]
      rfl
  | queue items startIndex autoplay =>
    simp only [Player.parseLoadV4, LoadSource.bare, isEmpty_map, length_map] at h ⊢
    split at h
    · cases h
    next hsome =>
      rw [if_neg hsome]
      split at h
      · cases h
      next hshort =>
        rw [if_neg hshort]
        split at h
        · cases h
        next hindex =>
          rw [if_neg hindex]
          split at h
          · cases h
          next resolved hresolved =>
            cases h
            have hresolve := @resolveAll_bare (V4MediaItem × Option ℕ)
              (fun item i => ResolvedItem.resolveV4 lib item.1 ("queue item " ++ toString i))
              (fun item => (item.1.bare, item.2))
              (fun item i resolved hitem => resolveV4_bare hitem) _ _ hresolved
            rw [hresolve]
            rfl

/-! ### Two commands that differ in headers alone -/

/-- Two loads that differ in headers alone, both accepted. -/
theorem outcome_loadV4 {player₁ player₂ : Player} (h : player₁.bare = player₂.bare)
    {source₁ source₂ : LoadSource} {raw₁ raw₂ : RawPacket}
    (hsource : source₁.bare = source₂.bare) (hraw : raw₁.bare = raw₂.bare)
    {applied₁ applied₂ : Applied} (hok₁ : (player₁.loadV4 lib source₁ raw₁).2 = .ok applied₁)
    (hok₂ : (player₂.loadV4 lib source₂ raw₂).2 = .ok applied₂) :
    outcome (player₁.loadV4 lib source₁ raw₁) = outcome (player₂.loadV4 lib source₂ raw₂) := by
  rw [Player.loadV4_eq] at hok₁ hok₂ ⊢
  rw [Player.loadV4_eq]
  cases hparsed₁ : Player.parseLoadV4 lib source₁ raw₁ with
  | error refusal =>
    rw [hparsed₁] at hok₁
    cases hok₁
  | ok parsed₁ =>
    cases hparsed₂ : Player.parseLoadV4 lib source₂ raw₂ with
    | error refusal =>
      rw [hparsed₂] at hok₂
      cases hok₂
    | ok parsed₂ =>
      have hbare₁ := parseLoadV4_bare hparsed₁
      have hbare₂ := parseLoadV4_bare hparsed₂
      rw [hsource, hraw, hbare₂] at hbare₁
      rw [← Player.loadResolved_bare, ← Player.loadResolved_bare player₂, h, hraw]
      simp only [Except.map]
      rw [Except.ok.inj hbare₁]

/-- Two insertions that differ in headers alone, both accepted. -/
theorem outcome_queueInsertV4 {player₁ player₂ : Player} (h : player₁.bare = player₂.bare)
    {item₁ item₂ : V4MediaItem} {position : QueuePosition} {raw₁ raw₂ : RawPacket}
    (hitem : item₁.bare = item₂.bare) (hraw : raw₁.bare = raw₂.bare) {applied₁ applied₂ : Applied}
    (hok₁ : (player₁.queueInsertV4 lib item₁ position raw₁).2 = .ok applied₁)
    (hok₂ : (player₂.queueInsertV4 lib item₂ position raw₂).2 = .ok applied₂) :
    outcome (player₁.queueInsertV4 lib item₁ position raw₁) =
      outcome (player₂.queueInsertV4 lib item₂ position raw₂) := by
  rw [Player.queueInsertV4_eq] at hok₁ hok₂ ⊢
  rw [Player.queueInsertV4_eq]
  cases hresolved₁ : ResolvedItem.resolveV4 lib item₁ "inserted item" with
  | error refusal =>
    rw [hresolved₁] at hok₁
    cases hok₁
  | ok resolved₁ =>
    cases hresolved₂ : ResolvedItem.resolveV4 lib item₂ "inserted item" with
    | error refusal =>
      rw [hresolved₂] at hok₂
      cases hok₂
    | ok resolved₂ =>
      have hbare₁ := resolveV4_bare hresolved₁
      have hbare₂ := resolveV4_bare hresolved₂
      rw [hitem, hbare₂] at hbare₁
      rw [← Player.insertResolved_bare, ← Player.insertResolved_bare player₂, h, hraw]
      simp only [Except.map]
      rw [Except.ok.inj hbare₁]

/-! ## Where echoes come from -/

/-- The message an update echoes, if it echoes one. -/
def ReceiverUpdate.shown? : ReceiverUpdate → Option PlayMessage
  | .playChanged play => play
  | .mediaItem _ item => some item
  | _ => none

/-- Whatever is echoed is an item of the queue that is loaded. -/
def ShowsLoaded (player : Player) (updates : List ReceiverUpdate) : Prop :=
  ∀ update ∈ updates, ∀ play, update.shown? = some play →
    ∃ loaded, player.loaded = some loaded ∧
      (play = loaded.play ∨ ∃ item ∈ loaded.queue, play = item.echo)

namespace Player

theorem ShowsLoaded.of_none {player : Player} {updates : List ReceiverUpdate}
    (h : ∀ update ∈ updates, update.shown? = none) : ShowsLoaded player updates := by
  intro update hupdate play hplay
  rw [h update hupdate] at hplay
  cases hplay

theorem showsLoaded_nil (player : Player) : ShowsLoaded player [] :=
  fun _ h => absurd h not_mem_nil

variable {first last : List ReceiverUpdate}

/-- An item that starts is one of the queue. -/
theorem showsLoaded_started (player₀ : Player) (h : loaded.WellFormed)
    (hloaded : player.loaded = some loaded)
    (hfirst : ShowsLoaded player first) (hlast : ∀ update ∈ last, update.shown? = none) :
    ShowsLoaded player (first ++ (player₀.started loaded (loaded.current h)).updates ++ last) := by
  intro update hupdate play hplay
  rcases mem_append.mp hupdate with hfront | hback
  · rcases mem_append.mp hfront with hmem | hmem
    · exact hfirst update hmem play hplay
    · rcases mem_cons.mp hmem with rfl | hmem
      · refine ⟨loaded, hloaded, .inr ⟨loaded.current h, get_mem _ _, ?_⟩⟩
        exact (Option.some.inj hplay).symm
      · cases mem_singleton.mp hmem
        cases hplay
  · rw [hlast update hback] at hplay
    cases hplay

/-- A load that begins echoes its own items. -/
theorem showsLoaded_begin (player : Player) (h : loaded.WellFormed)
    {relayed : List ReceiverUpdate} (hrelayed : ShowsLoaded (player.playing loaded) relayed) :
    ∃ player' applied, player.begin loaded relayed = (player', .ok applied) ∧
      ShowsLoaded player' applied.updates :=
  ⟨_, _, player.begin_eq h relayed, showsLoaded_started _ h rfl hrelayed (by
    intro update hupdate
    cases mem_singleton.mp hupdate
    rfl)⟩

theorem showsLoaded_jumped (player : Player) (h : loaded.WellFormed)
    (hfirst : ShowsLoaded (player.playing loaded) first)
    (hlast : ∀ update ∈ last, update.shown? = none) :
    ShowsLoaded (player.playing loaded) (first ++ (player.jumped loaded h).updates ++ last) :=
  showsLoaded_started _ h rfl hfirst hlast

/-- A jump by a version 2 or 3 sender echoes an item of the same queue. -/
theorem showsLoaded_setPlaylistItem (h : player.WellFormed) (index : ℕ) {player' : Player}
    {applied : Applied} (happly : player.setPlaylistItem index = (player', .ok applied)) :
    ShowsLoaded player' applied.updates := by
  rcases setPlaylistItem_cases h index with ⟨refusal, hrefused⟩ | ⟨loaded, -, -, -, hwf, hset⟩
  · cases hrefused.symm.trans happly
  · cases hset.symm.trans happly
    have hshows := showsLoaded_jumped player hwf (showsLoaded_nil _)
      fun _ hnil => absurd hnil not_mem_nil
    rwa [nil_append, append_nil] at hshows

/-- The end of an item echoes that item, which was loaded. -/
theorem showsLoaded_mediaEnded (h : player.WellFormed) (ending : PlaybackEnd) {player' : Player}
    {applied : Applied} (happly : player.mediaEnded ending = (player', .ok applied)) :
    ShowsLoaded player' applied.updates := by
  rcases mediaEnded_cases h ending with ⟨-, hended⟩ |
    ⟨loaded, hwf, hloaded, ⟨hnext, hended⟩ | hended⟩
  · cases hended.symm.trans happly
    exact ShowsLoaded.of_none (by simp [Applied.nothing])
  · cases hended.symm.trans happly
    have hfirst : ShowsLoaded (player.playing { loaded with index := loaded.index + 1 })
        [.mediaItem .end (loaded.current hwf).echo] := by
      intro update hupdate shown hshown
      cases mem_singleton.mp hupdate
      exact ⟨_, rfl, .inr ⟨_, get_mem _ _, (Option.some.inj hshown).symm⟩⟩
    refine showsLoaded_jumped player hnext hfirst ?_
    intro update hupdate
    unfold announcement at hupdate
    split at hupdate
    · cases mem_singleton.mp hupdate
      rfl
    · cases hupdate
  · cases hended.symm.trans happly
    intro update hupdate shown hshown
    rcases mem_cons.mp hupdate with rfl | hupdate
    · exact ⟨loaded, hloaded, .inr ⟨_, get_mem _ _, (Option.some.inj hshown).symm⟩⟩
    · cases ending with
      | finished =>
        cases mem_singleton.mp hupdate
        cases hshown
      | failed cause detail =>
        rcases mem_cons.mp hupdate with rfl | hupdate
        · cases hshown
        · cases mem_singleton.mp hupdate
          cases hshown

/-- **What is shown is loaded**, after any operation. -/
theorem showsLoaded_apply (lib : Libraries) (h : player.WellFormed) (op : Operation)
    {player' : Player} {applied : Applied} (happly : player.apply lib op = (player', .ok applied)) :
    ShowsLoaded player' applied.updates := by
  cases op with
  | load play =>
    rcases player.load_cases lib play with ⟨refusal, hrefused⟩ |
      ⟨queue, index, isPlaylist, -, hwf, hload⟩
    · cases hrefused.symm.trans happly
    · have hplay : ShowsLoaded ((player.withVolume play.volume).playing
          ⟨play, queue, index, isPlaylist, true, none, false⟩) [.playChanged (some play)] := by
        intro update hupdate shown hshown
        cases mem_singleton.mp hupdate
        exact ⟨_, rfl, .inl (Option.some.inj hshown).symm⟩
      obtain ⟨_, _, hbegin, hshows⟩ := showsLoaded_begin (player.withVolume play.volume) hwf hplay
      cases (hload.trans hbegin).symm.trans happly
      exact hshows
  | loadV4 source raw =>
    rcases player.loadV4_cases lib source raw with ⟨refusal, hrefused⟩ |
      ⟨queue, index, isPlaylist, autoplay, v4SingleRaw, v4Queue, item, -, -, hwf, hload⟩
    · cases hrefused.symm.trans happly
    · have hplay : ShowsLoaded ((player.withVolume item.echo.volume).playing
          ⟨item.echo, queue, index, isPlaylist, autoplay, v4SingleRaw, v4Queue⟩)
          [.playChanged (some item.echo), .v4Load raw] := by
        intro update hupdate shown hshown
        rcases mem_cons.mp hupdate with rfl | hraw
        · exact ⟨_, rfl, .inl (Option.some.inj hshown).symm⟩
        · cases mem_singleton.mp hraw
          cases hshown
      obtain ⟨_, _, hbegin, hshows⟩ :=
        showsLoaded_begin (player.withVolume item.echo.volume) hwf hplay
      cases (hload.trans hbegin).symm.trans happly
      exact hshows
  | queueInsertV4 item position raw =>
    rcases queueInsertV4_cases lib h item position raw with ⟨refusal, hrefused⟩ |
      ⟨_, _, _, -, -, -, -, -, -, hinsert⟩
    · cases hrefused.symm.trans happly
    · cases hinsert.symm.trans happly
      exact ShowsLoaded.of_none (by simp [editing, ReceiverUpdate.shown?])
  | queueRemoveV4 position =>
    rcases queueRemoveV4_cases h position with ⟨refusal, hrefused⟩ |
      ⟨_, _, -, -, -, -, -, hremove⟩
    · cases hrefused.symm.trans happly
    · cases hremove.symm.trans happly
      exact ShowsLoaded.of_none (by simp [editing, ReceiverUpdate.shown?])
  | queueSelectV4 position =>
    rcases queueSelectV4_cases h position with ⟨refusal, hrefused⟩ |
      ⟨loaded, index, -, -, -, hwf, hselect⟩
    · cases hrefused.symm.trans happly
    · cases hselect.symm.trans happly
      exact showsLoaded_jumped player hwf (showsLoaded_nil _)
        (by simp [ReceiverUpdate.shown?])
  | setPlaylistItem index => exact showsLoaded_setPlaylistItem h index happly
  | step forward =>
    rcases player.step_cases forward with ⟨refusal, hrefused⟩ | ⟨loaded, index, -, -, -, hstep⟩
    · cases hrefused.symm.trans happly
    · exact showsLoaded_setPlaylistItem h index (hstep.symm.trans happly)
  | pause =>
    cases happly
    unfold pause
    split <;> exact ShowsLoaded.of_none (by simp [Applied.nothing, ReceiverUpdate.shown?])
  | resume =>
    cases happly
    unfold resume
    split <;> exact ShowsLoaded.of_none (by simp [Applied.nothing, ReceiverUpdate.shown?])
  | stop =>
    cases happly
    unfold stop
    split <;> exact ShowsLoaded.of_none (by simp [Applied.nothing, ReceiverUpdate.shown?])
  | seek target =>
    cases happly
    unfold seek
    split <;> exact ShowsLoaded.of_none (by simp [Applied.nothing, ReceiverUpdate.shown?])
  | setVolume volume =>
    cases happly
    exact ShowsLoaded.of_none (by simp [setVolume, ReceiverUpdate.shown?])
  | setSpeed speed shown =>
    simp only [apply, setSpeed] at happly
    split at happly
    · cases happly
      exact ShowsLoaded.of_none (by simp [Applied.nothing])
    · cases happly
  | mediaEnded ending => exact showsLoaded_mediaEnded h ending happly

/-- An update that echoes nothing may follow. -/
theorem showsLoaded_extended {result : Player × Except Fault Applied}
    (h : ∀ applied, result.2 = .ok applied → ShowsLoaded result.1 applied.updates)
    (hlast : ∀ update ∈ last, update.shown? = none) :
    ∀ applied, (extended [] last result).2 = .ok applied →
      ShowsLoaded (extended [] last result).1 applied.updates := by
  obtain ⟨after, fault | applied₀⟩ := result
  · exact fun _ hok => by cases hok
  · intro applied hok
    cases hok
    intro update hupdate play hplay
    rcases mem_append.mp hupdate with hmem | hmem
    · exact h applied₀ rfl update hmem play hplay
    · rw [hlast update hmem] at hplay
      cases hplay

/-- The updates of a result, or its fault. -/
def updates? (result : Player × Except Fault Applied) : Except Fault (List ReceiverUpdate) :=
  result.2.map Applied.updates

theorem updates?_extended {result₁ result₂ : Player × Except Fault Applied}
    (h : updates? result₁ = updates? result₂) (first last : List ReceiverUpdate) :
    updates? (extended first last result₁) = updates? (extended first last result₂) := by
  obtain ⟨after₁, fault₁ | applied₁⟩ := result₁
  · obtain ⟨after₂, fault₂ | applied₂⟩ := result₂
    · exact h
    · cases h
  · obtain ⟨after₂, fault₂ | applied₂⟩ := result₂
    · cases h
    · have hupdates : applied₁.updates = applied₂.updates := Except.ok.inj h
      simp only [updates?, extended, Except.map, hupdates]

theorem extended_nil (result : Player × Except Fault Applied) : extended [] [] result = result := by
  obtain ⟨after, fault | applied⟩ := result
  · rfl
  · simp only [extended, Except.map, nil_append, append_nil]

end Player

end Castaway.FCast
