import Castaway.FCast.Steps

/-!
# Where request headers go

Two runs of the receiver that differ in the headers of one version 4 packet.
Their players stay alike, which is to say equal but for the headers of media
that a version 4 sender loaded, and their peers stay the same.

A version 3 session is shown the whole item, headers included.  **The headline
result** `headers_confined` is that this is the only way out: while no version 3
session is connected to a player that holds headers of a version 4 sender, every
other connection is sent the same frames in both runs.
`headers_reach_version_three` is a run in which one is.
-/

namespace Castaway.FCast

open Castaway.Core (PlaybackEnd)
open Function List

variable {lib : Libraries} {player player₁ player₂ : Player} {loaded : Loaded}

/-! ## Players that are alike -/

/-- A version 4 sender loaded this. -/
def Loaded.fromV4 (loaded : Loaded) : Bool := loaded.v4Queue || loaded.v4SingleRaw.isSome

/-- Nothing of the load shows a header. -/
structure Loaded.Headerless (loaded : Loaded) : Prop where
  play : loaded.play.headers = none
  queue : ∀ item ∈ loaded.queue, item.echo.headers = none

namespace Player

def fromV4 (player : Player) : Bool := player.loaded.any Loaded.fromV4

/-- Equal, or equal but for headers with media of a version 4 sender. -/
structure Alike (player₁ player₂ : Player) : Prop where
  bare : player₁.bare = player₂.bare
  eq_or : player₁ = player₂ ∨ player₁.fromV4 = true

theorem Alike.refl (player : Player) : player.Alike player := ⟨rfl, .inl rfl⟩

theorem fromV4_bare (player : Player) : player.bare.fromV4 = player.fromV4 := by
  obtain ⟨_ | loaded, state, volume⟩ := player
  · rfl
  · simp [fromV4, bare, Loaded.fromV4, Loaded.bare]

theorem Alike.volume (h : player₁.Alike player₂) : player₁.volume = player₂.volume := by
  have hvolume := congrArg Player.volume h.bare
  exact hvolume

theorem Alike.snapshot (h : player₁.Alike player₂) (progress : Option PlaybackProgress) :
    player₁.snapshot progress = player₂.snapshot progress := by
  rw [← snapshot_bare, h.bare, snapshot_bare]

/-- The operation puts the media of a version 1 to 3 sender, or none, in place
of what is loaded. -/
def replaces : Operation → Bool
  | .load _ | .stop => true
  | _ => false

theorem fromV4_setPlaylistItem (h : player.WellFormed) (hv4 : player.fromV4 = true) (index : ℕ) :
    (player.setPlaylistItem index).1.fromV4 = true := by
  rcases setPlaylistItem_cases h index with ⟨refusal, hrefused⟩ | ⟨loaded, hloaded, -, -, hwf, hset⟩
  · rw [hrefused]
    exact hv4
  · rw [hset]
    rw [fromV4, hloaded] at hv4
    exact hv4

theorem fromV4_parsed {source : LoadSource} {raw : RawPacket} {queue : List ResolvedItem}
    {index : ℕ} {isPlaylist autoplay v4Queue : Bool} {v4SingleRaw : Option RawPacket}
    (h : parseLoadV4 lib source raw =
      .ok (queue, index, isPlaylist, autoplay, v4SingleRaw, v4Queue)) :
    (v4Queue || v4SingleRaw.isSome) = true := by
  unfold parseLoadV4 at h
  split at h
  · split at h
    · cases h
    · cases h
      rfl
  · split at h
    · cases h
    · split at h
      · cases h
      · dsimp only at h
        split at h
        · cases h
        · split at h
          · cases h
          · cases h
            rfl

/-- Any other operation keeps the media that of a version 4 sender. -/
theorem fromV4_apply (lib : Libraries) (h : player.WellFormed) (hv4 : player.fromV4 = true)
    {op : Operation} (hop : replaces op = false) : (player.apply lib op).1.fromV4 = true := by
  have hsame : ∀ loaded, player.loaded = some loaded → loaded.fromV4 = true := by
    intro loaded hloaded
    rw [fromV4, hloaded] at hv4
    exact hv4
  cases op with
  | load _ | stop => cases hop
  | loadV4 source raw =>
    rcases player.loadV4_cases lib source raw with ⟨refusal, hrefused⟩ |
      ⟨_, _, _, _, _, _, item, hparsed, -, hwf, hload⟩
    · rw [apply, hrefused]
      exact hv4
    · rw [apply, hload, begin_eq _ hwf]
      exact fromV4_parsed hparsed
  | queueInsertV4 item position raw =>
    rcases queueInsertV4_cases lib h item position raw with ⟨refusal, hrefused⟩ |
      ⟨_, loaded, _, -, hloaded, -, -, -, -, hinsert⟩
    · rw [apply, hrefused]
      exact hv4
    · rw [apply, hinsert]
      exact hsame loaded hloaded
  | queueRemoveV4 position =>
    rcases queueRemoveV4_cases h position with ⟨refusal, hrefused⟩ |
      ⟨loaded, _, hloaded, -, -, -, -, hremove⟩
    · rw [apply, hrefused]
      exact hv4
    · rw [apply, hremove]
      exact hsame loaded hloaded
  | queueSelectV4 position =>
    rcases queueSelectV4_cases h position with ⟨refusal, hrefused⟩ |
      ⟨loaded, index, hloaded, -, -, hwf, hselect⟩
    · rw [apply, hrefused]
      exact hv4
    · rw [apply, hselect]
      exact hsame loaded hloaded
  | setPlaylistItem index => exact fromV4_setPlaylistItem h hv4 index
  | step forward =>
    rcases player.step_cases forward with ⟨refusal, hrefused⟩ | ⟨_, index, -, -, -, hstep⟩
    · rw [apply, hrefused]
      exact hv4
    · rw [apply, hstep]
      exact fromV4_setPlaylistItem h hv4 index
  | pause =>
    rw [apply, done, pause]
    split <;> exact hv4
  | resume =>
    rw [apply, done, resume]
    split <;> exact hv4
  | seek target =>
    rw [apply, done, seek]
    split <;> exact hv4
  | setVolume volume => exact hv4
  | setSpeed speed shown =>
    rw [apply, setSpeed]
    split <;> exact hv4
  | mediaEnded ending =>
    rcases mediaEnded_cases h ending with ⟨-, hended⟩ |
      ⟨loaded, hwf, hloaded, ⟨hnext, hended⟩ | hended⟩
    · rw [apply, hended]
      exact hv4
    · rw [apply, hended]
      exact hsame loaded hloaded
    · rw [apply, hended]
      exact hv4

theorem begin_volume {player₁ player₂ : Player} (h : player₁.volume = player₂.volume)
    (loaded : Loaded) (relayed : List ReceiverUpdate) :
    player₁.begin loaded relayed = player₂.begin loaded relayed := by
  obtain ⟨_, _, volume⟩ := player₁
  cases h
  rfl

/-- **One operation** on two players that are alike: they stay alike, and what
is told differs in headers alone, and not even there unless a version 4 sender's
media is loaded. -/
theorem Alike.apply (lib : Libraries) (h : player₁.Alike player₂) (hwf : player₁.WellFormed)
    (op : Operation) : (player₁.apply lib op).1.Alike (player₂.apply lib op).1 ∧
      ((player₁.apply lib op).1.fromV4 = true ∨
        updates? (player₁.apply lib op) = updates? (player₂.apply lib op)) := by
  have houtcome := outcome_apply lib h.bare op
  have hbare : (player₁.apply lib op).1.bare = (player₂.apply lib op).1.bare :=
    congrArg Prod.fst houtcome
  rcases h.eq_or with rfl | hv4
  · exact ⟨.refl _, .inr rfl⟩
  · cases hop : replaces op with
    | false =>
      have hkept := fromV4_apply lib hwf hv4 hop
      exact ⟨⟨hbare, .inr hkept⟩, .inl hkept⟩
    | true =>
      cases op with
      | load play =>
        simp only [Player.apply, load] at hbare ⊢
        cases hparsed : parseLoad lib play with
        | error refusal => exact ⟨h, .inr rfl⟩
        | ok parsed =>
          obtain ⟨queue, index, isPlaylist⟩ := parsed
          have hvolume : (player₁.withVolume play.volume).volume =
              (player₂.withVolume play.volume).volume := by
            simp only [withVolume, h.volume]
          dsimp only
          rw [begin_volume hvolume]
          exact ⟨.refl _, .inr rfl⟩
      | stop =>
        have hloaded : player₁.loaded.isNone = false := by
          rw [fromV4] at hv4
          cases hnone : player₁.loaded with
          | none =>
            rw [hnone] at hv4
            cases hv4
          | some loaded => rfl
        have hloaded' : player₂.loaded.isNone = false := by
          rw [← isNone_bare, ← h.bare, isNone_bare, hloaded]
        have hsame : ({ player₁ with loaded := none, state := .idle } : Player) =
            { player₂ with loaded := none, state := .idle } := by
          rw [h.volume]
        simp only [Player.apply, done, stop, hloaded, hloaded', if_neg Bool.false_ne_true,
          hsame]
        exact ⟨.refl _, .inr trivial⟩
      | _ => cases hop

end Player

/-- An accepted load of a version 4 sender is one. -/
theorem loadV4_fromV4 {source : LoadSource} {raw : RawPacket} {applied : Applied}
    (hok : (player.loadV4 lib source raw).2 = .ok applied) :
    (player.loadV4 lib source raw).1.fromV4 = true := by
  rcases player.loadV4_cases lib source raw with ⟨refusal, hrefused⟩ |
    ⟨_, _, _, _, _, _, item, hparsed, -, hwf, hload⟩
  · rw [hrefused] at hok
    cases hok
  · rw [hload, Player.begin_eq _ hwf]
    exact Player.fromV4_parsed hparsed

theorem queueInsertV4_fromV4 (h : player.WellFormed) {item : V4MediaItem}
    {position : QueuePosition} {raw : RawPacket} {applied : Applied}
    (hok : (player.queueInsertV4 lib item position raw).2 = .ok applied) :
    (player.queueInsertV4 lib item position raw).1.fromV4 = true := by
  rcases Player.queueInsertV4_cases lib h item position raw with ⟨refusal, hrefused⟩ |
    ⟨_, loaded, _, -, hloaded, hv4, -, -, -, hinsert⟩
  · rw [hrefused] at hok
    cases hok
  · rw [hinsert]
    change (loaded.v4Queue || loaded.v4SingleRaw.isSome) = true
    rw [hv4, Bool.true_or]

/-! ## The same frames -/

/-- The update reads the same to a session without its headers. -/
def ReadsBare (wallMs : ℕ) (session : PeerSession) (update : ReceiverUpdate) : Prop :=
  session.updateFrame wallMs update.bare = session.updateFrame wallMs update

/-- A session of version 3 is shown headers. -/
def PeerSession.isV3 : PeerSession → Bool
  | .json session => session.version == some .v3
  | .v4 _ => false

theorem readsBare_of_old {session : PeerSession} (h : session.isV3 = false) (wallMs : ℕ)
    (update : ReceiverUpdate) : ReadsBare wallMs session update := by
  cases session with
  | json session =>
    have hversion : session.version ≠ some .v3 := by
      simpa [PeerSession.isV3] using h
    exact congrArg (Option.map Frame.json) (frameUpdate_bare hversion wallMs update)
  | v4 session => exact congrArg (Option.map Frame.v4) (v4UpdateFrame_bare update)

theorem PlayMessage.bare_of_headerless {play : PlayMessage} (h : play.headers = none) :
    play.bare = play := by
  rw [PlayMessage.bare, ← h]

theorem readsBare_of_headerless {update : ReceiverUpdate}
    (h : ∀ play, update.shown? = some play → play.headers = none) (wallMs : ℕ)
    (session : PeerSession) : ReadsBare wallMs session update := by
  cases session with
  | v4 session => exact congrArg (Option.map Frame.v4) (v4UpdateFrame_bare update)
  | json session =>
    refine congrArg (Option.map Frame.json) ?_
    cases update with
    | playChanged play =>
      cases play with
      | none => rfl
      | some play =>
        rw [ReceiverUpdate.bare, Option.map_some,
          PlayMessage.bare_of_headerless (h play rfl)]
    | mediaItem kind item =>
      rw [ReceiverUpdate.bare, PlayMessage.bare_of_headerless (h item rfl)]
    | v4Load raw | queueInsertRelay raw => simp [Session.frameUpdate, ReceiverUpdate.bare]
    | _ => rfl

theorem isEcho_bare (update : ReceiverUpdate) : Inner.isEcho update.bare = Inner.isEcho update := by
  cases update <;> rfl

theorem framesFor_bare {wallMs : ℕ} {session : PeerSession} {updates : List ReceiverUpdate}
    (h : ∀ update ∈ updates, ReadsBare wallMs session update) (own : Bool) :
    Inner.framesFor wallMs (updates.map ReceiverUpdate.bare) own session =
      Inner.framesFor wallMs updates own session := by
  unfold Inner.framesFor
  induction updates with
  | nil => rfl
  | cons update updates ih =>
    have hread : session.updateFrame wallMs update.bare = session.updateFrame wallMs update :=
      h update mem_cons_self
    have hrest := ih fun other hother => h other (mem_cons_of_mem _ hother)
    rw [map_cons, filter_cons, filter_cons, isEcho_bare]
    split
    · rw [filterMap_cons, filterMap_cons, hread, hrest]
    · exact hrest

/-! ## Receivers that are alike -/

/-- Two packets that load or insert the same but for request headers. -/
inductive Packet.Alike : Packet → Packet → Prop where
  | load {source₁ source₂ : FlatSource} (hsource : source₁.bare = source₂.bare) :
      Alike (.load (some source₁)) (.load (some source₂))
  | queueInsert {item₁ item₂ : FlatQueueItem} (hitem : item₁.bare = item₂.bare)
      (position : Option QueuePosition) :
      Alike (.queueInsert item₁ position) (.queueInsert item₂ position)

/-- What an item says without its headers is what is left of it without them. -/
theorem fromFlat_bare (item : FlatMediaItem) :
    V4MediaItem.fromFlat item.bare = (V4MediaItem.fromFlat item).bare := rfl

theorem sourceFromFlat_bare (source : FlatSource) :
    LoadSource.fromFlat source.bare = (LoadSource.fromFlat source).bare := by
  cases source with
  | single item => rfl
  | queue items startIndex autoplay =>
    simp only [FlatSource.bare, LoadSource.fromFlat, LoadSource.bare, map_map]
    rfl

/-- Two version 4 commands that differ in headers alone. -/
inductive V4Command.Alike : V4Command → V4Command → Prop where
  | load {source₁ source₂ : LoadSource} {raw₁ raw₂ : RawPacket}
      (hsource : source₁.bare = source₂.bare) (hraw : raw₁.bare = raw₂.bare) :
      Alike (.load source₁ raw₁) (.load source₂ raw₂)
  | queueInsert {item₁ item₂ : V4MediaItem} (duration : Option ℕ) (position : QueuePosition)
      {raw₁ raw₂ : RawPacket} (hitem : item₁.bare = item₂.bare) (hraw : raw₁.bare = raw₂.bare) :
      Alike (.queueInsert item₁ duration position raw₁) (.queueInsert item₂ duration position raw₂)

/-- The same peer, but for the command it carries if it is the originator. -/
inductive PeerAlike (originator : Prop) : Option Peer → Option Peer → Prop where
  | same (peer : Option Peer) : PeerAlike originator peer peer
  | carrying (howned : originator) (peer : Peer) (session : SessionV4)
      (hsession : peer.session = .v4 session) {command₁ command₂ : V4Command}
      (hcommand : command₁.Alike command₂) :
      PeerAlike originator (some { peer with actor := .carrying (.v4 command₁) })
        (some { peer with actor := .carrying (.v4 command₂) })

namespace Inner

variable {shared : Shared} {pending : ℕ → Prop} {s t : Inner}

/-- Two receivers that differ in headers alone: those of the media that is
loaded, and those of the commands that `pending` peers carry. -/
structure Alike (pending : ℕ → Prop) (s t : Inner) : Prop where
  player : s.player.Alike t.player
  peers : ∀ id, PeerAlike (pending id) (s.peers id) (t.peers id)
  rest : t = { s with player := t.player, peers := t.peers }

/-- No version 3 session is connected while the player holds headers that a
version 4 sender gave. -/
def Guarded (inner : Inner) : Prop :=
  ∀ loaded, inner.player.loaded = some loaded → loaded.fromV4 = true →
    (∃ id peer, inner.peers id = some peer ∧ peer.session.isV3 = true) → loaded.Headerless

namespace Alike

theorem refl (pending : ℕ → Prop) (s : Inner) : s.Alike pending s :=
  ⟨.refl _, fun _ => .same _, rfl⟩

section

variable (h : s.Alike pending t)
include h

/-- A change that neither reads nor changes the player and the peers. -/
theorem tables (f : Inner → Inner) (hf : ∀ (s : Inner) (player : Player) (peers : ℕ → Option Peer),
      f { s with player, peers } = { f s with player, peers }) : (f s).Alike pending (f t) := by
  have hs : f s = { f s with player := s.player, peers := s.peers } := hf s s.player s.peers
  have ht : f t = { f s with player := t.player, peers := t.peers } := by
    conv_lhs => rw [h.rest]
    exact hf s t.player t.peers
  rw [hs, ht]
  exact ⟨h.player, h.peers, rfl⟩

theorem replace {player₁ player₂ : Player} (hplayer : player₁.Alike player₂)
    {peers₁ peers₂ : ℕ → Option Peer}
    (hpeers : ∀ id, PeerAlike (pending id) (peers₁ id) (peers₂ id)) :
    ({ s with player := player₁, peers := peers₁ } : Inner).Alike pending
      { t with player := player₂, peers := peers₂ } where
  player := hplayer
  peers := hpeers
  rest := by
    conv_lhs => rw [h.rest]

theorem mono {more : ℕ → Prop} (hmore : ∀ id, pending id → more id) :
    s.Alike more t := by
  refine ⟨h.player, fun id => ?_, h.rest⟩
  have hpeers := h.peers id
  generalize s.peers id = first at hpeers ⊢
  generalize t.peers id = second at hpeers ⊢
  cases hpeers with
  | same => exact .same _
  | carrying howned peer session hsession hcommand =>
    exact .carrying (hmore id howned) peer session hsession hcommand

/-- A peer that comes, goes or is put back the same. -/
theorem setPeer (id : ℕ) (peer : Option Peer) :
    (s.setPeer id peer).Alike pending (t.setPeer id peer) := by
  refine h.replace h.player fun other => ?_
  by_cases hother : other = id
  · subst hother
    rw [update_self, update_self]
    exact .same _
  · rw [update_of_ne hother, update_of_ne hother]
    exact h.peers other

/-- The peer that is put back the same is not pending any more. -/
theorem settled {id : ℕ} (hsame : s.peers id = t.peers id) :
    s.Alike (fun other => pending other ∧ other ≠ id) t := by
  refine ⟨h.player, fun other => ?_, h.rest⟩
  by_cases hother : other = id
  · subst hother
    rw [hsame]
    exact .same _
  · have hpeers := h.peers other
    generalize s.peers other = first at hpeers ⊢
    generalize t.peers other = second at hpeers ⊢
    cases hpeers with
    | same => exact .same _
    | carrying howned peer session hsession hcommand =>
      exact .carrying ⟨howned, hother⟩ peer session hsession hcommand

end

def Blind (f : Peer → Peer) : Prop :=
  ∀ (peer : Peer) (session : SessionV4), peer.session = .v4 session →
    ∃ (after : Peer) (session' : SessionV4), after.session = .v4 session' ∧
      ∀ command, f { peer with actor := .carrying command } =
        { after with actor := .carrying command }

theorem Blind.peerAlike {f : Peer → Peer} (hf : Blind f) {originator : Prop}
    {peer₁ peer₂ : Option Peer} (h : PeerAlike originator peer₁ peer₂) :
    PeerAlike originator (peer₁.map f) (peer₂.map f) := by
  cases h with
  | same => exact .same _
  | carrying howned peer session hsession hcommand =>
    obtain ⟨after, session', hafter, hf⟩ := hf peer session hsession
    rw [Option.map_some, Option.map_some, hf, hf]
    exact .carrying howned after session' hafter hcommand

theorem onPeer (h : s.Alike pending t) (id : ℕ) {f : Peer → Peer} (hf : Blind f) :
    (s.onPeer id f).Alike pending (t.onPeer id f) := by
  refine h.replace h.player fun other => ?_
  by_cases hother : other = id
  · subst hother
    rw [update_self, update_self]
    exact hf.peerAlike (h.peers other)
  · rw [update_of_ne hother, update_of_ne hother]
    exact h.peers other

theorem blind_sendFrame (shared : Shared) (frame : Frame) :
    Blind fun peer => peer.sendFrame shared frame := by
  intro peer session hsession
  refine ⟨peer.sendFrame shared frame, session, ?_, fun command => ?_⟩
  · unfold Peer.sendFrame
    split <;> exact hsession
  · unfold Peer.sendFrame
    dsimp only
    split <;> rfl

theorem blind_sendFrames (shared : Shared) (frames : List Frame) :
    Blind fun peer => peer.sendFrames shared frames := by
  unfold Peer.sendFrames
  induction frames with
  | nil => exact fun peer session hsession => ⟨peer, session, hsession, fun _ => rfl⟩
  | cons frame frames ih =>
    intro peer session hsession
    obtain ⟨middle, session', hmiddle, hfirst⟩ :=
      blind_sendFrame shared frame peer session hsession
    obtain ⟨after, session'', hafter, hrest⟩ := ih middle session' hmiddle
    refine ⟨after, session'', hafter, fun command => ?_⟩
    have hfirst := hfirst command
    dsimp only at hfirst ⊢
    rw [foldl_cons, hfirst]
    exact hrest command

theorem sendTo (h : s.Alike pending t) (id : ℕ) (frame : Frame) :
    (s.sendTo shared id frame).Alike pending (t.sendTo shared id frame) :=
  h.onPeer id (blind_sendFrame shared frame)

theorem blind_bySession (shared : Shared) (frames : PeerSession → List Frame) :
    Blind fun peer => peer.sendFrames shared (frames peer.session) := fun peer =>
  blind_sendFrames shared (frames peer.session) peer

theorem exists_peer (h : s.Alike pending t) {id : ℕ} {peer : Peer}
    (hpeer : s.peers id = some peer) :
    ∃ peer', t.peers id = some peer' ∧ peer'.session = peer.session := by
  have hpeers := h.peers id
  rw [hpeer] at hpeers
  generalize t.peers id = second at hpeers
  cases hpeers with
  | same => exact ⟨peer, rfl, rfl⟩
  | carrying howned peer session hsession hcommand => exact ⟨_, rfl, rfl⟩

theorem symm_peer (h : s.Alike pending t) {id : ℕ} {peer : Peer} (hpeer : t.peers id = some peer) :
    ∃ peer', s.peers id = some peer' ∧ peer'.session = peer.session := by
  have hpeers := h.peers id
  rw [hpeer] at hpeers
  generalize s.peers id = first at hpeers
  cases hpeers with
  | same => exact ⟨peer, rfl, rfl⟩
  | carrying howned peer session hsession hcommand => exact ⟨_, rfl, rfl⟩

/-- Every connected peer is sent frames by its session, the same in both. -/
theorem sendAll (h : s.Alike pending t) {player₁ player₂ : Player} (hplayer : player₁.Alike player₂)
    (frames₁ frames₂ : ℕ → PeerSession → List Frame)
    (hframes : ∀ id peer, s.peers id = some peer →
      frames₁ id peer.session = frames₂ id peer.session) :
    ({ s with
        player := player₁
        peers := fun id => (s.peers id).map fun peer =>
          peer.sendFrames shared (frames₁ id peer.session) } : Inner).Alike pending
      { t with
        player := player₂
        peers := fun id => (t.peers id).map fun peer =>
          peer.sendFrames shared (frames₂ id peer.session) } := by
  refine h.replace hplayer fun id => ?_
  have hsecond : (t.peers id).map (fun peer => peer.sendFrames shared (frames₂ id peer.session)) =
      (t.peers id).map fun peer => peer.sendFrames shared (frames₁ id peer.session) := by
    refine Option.map_congr fun peer hpeer => ?_
    obtain ⟨peer', hpeer', hsession⟩ := h.symm_peer hpeer
    rw [← hsession, hframes id peer' hpeer']
  rw [hsecond]
  exact (blind_bySession shared (frames₁ id)).peerAlike (h.peers id)

end Alike

/-! ### Broadcasts -/

theorem framesFor_eq {wallMs : ℕ} {session : PeerSession} {updates₁ updates₂ : List ReceiverUpdate}
    (hbare : updates₁.map ReceiverUpdate.bare = updates₂.map ReceiverUpdate.bare)
    (hreads₁ : ∀ update ∈ updates₁, ReadsBare wallMs session update)
    (hreads₂ : ∀ update ∈ updates₂, ReadsBare wallMs session update) (own : Bool) :
    framesFor wallMs updates₁ own session = framesFor wallMs updates₂ own session := by
  rw [← framesFor_bare hreads₁, hbare, framesFor_bare hreads₂]

/-- What is shown of media without headers reads the same without them. -/
theorem readsBare_of_shown {player : Player} {updates : List ReceiverUpdate}
    (hshows : ShowsLoaded player updates)
    (hheaderless : ∀ loaded, player.loaded = some loaded → loaded.Headerless) (wallMs : ℕ)
    (session : PeerSession) (update : ReceiverUpdate) (hupdate : update ∈ updates) :
    ReadsBare wallMs session update := by
  refine readsBare_of_headerless (fun play hplay => ?_) wallMs session
  obtain ⟨loaded, hloaded, rfl | ⟨item, hitem, rfl⟩⟩ := hshows update hupdate play hplay
  · exact (hheaderless loaded hloaded).play
  · exact (hheaderless loaded hloaded).queue item hitem

def KeepsSessions (s s' : Inner) : Prop :=
  ∀ id peer, s.peers id = some peer →
    ∃ peer', s'.peers id = some peer' ∧ peer'.session = peer.session

theorem keepsSessions_onPeer {id : ℕ} {f : Peer → Peer}
    (hf : ∀ peer, (f peer).session = peer.session) : s.KeepsSessions (s.onPeer id f) := by
  intro other peer hpeer
  by_cases hother : other = id
  · subst hother
    exact ⟨f peer, by rw [onPeer_self, hpeer]; rfl, hf peer⟩
  · exact ⟨peer, by rw [onPeer_of_ne _ hother, hpeer], rfl⟩

theorem keepsSessions_settle (wallMs : ℕ) (id : Option ℕ) (result : Player × Except Fault Applied) :
    s.KeepsSessions (s.settle shared wallMs id result).1 := by
  obtain ⟨player, refusal | applied⟩ := result
  · cases refusal with
    | refused refusal =>
      cases id with
      | none => exact fun id peer hpeer => ⟨peer, hpeer, rfl⟩
      | some id => exact keepsSessions_onPeer fun peer => sendFrames_session _ _ _
    | panic => exact fun id peer hpeer => ⟨peer, hpeer, rfl⟩
  · intro id peer hpeer
    refine ⟨_, congrArg (Option.map _) hpeer, sendFrames_session _ _ _⟩

/-- What a guarded step shows to a version 3 session has no headers, if a
version 4 sender loaded it. -/
theorem Guarded.headerless {s' : Inner} (h : s'.Guarded) (hkeeps : s.KeepsSessions s')
    {id : ℕ} {peer : Peer} (hpeer : s.peers id = some peer) (hv3 : peer.session.isV3 = true)
    (hv4 : s'.player.fromV4 = true) :
    ∀ loaded, s'.player.loaded = some loaded → loaded.Headerless := by
  intro loaded hloaded
  obtain ⟨peer', hpeer', hsession⟩ := hkeeps id peer hpeer
  refine h loaded hloaded ?_ ⟨id, peer', hpeer', by rw [hsession, hv3]⟩
  rw [Player.fromV4, hloaded] at hv4
  exact hv4

/-- **An operation is settled alike** if its results are, in a guarded step. -/
theorem Alike.settle (h : s.Alike pending t) {result₁ result₂ : Player × Except Fault Applied}
    (hplayer : result₁.1.Alike result₂.1) (houtcome : outcome result₁ = outcome result₂)
    (hexact : result₁.1.fromV4 = true ∨ Player.updates? result₁ = Player.updates? result₂)
    (hshows₁ : ∀ applied, result₁.2 = .ok applied → ShowsLoaded result₁.1 applied.updates)
    (hshows₂ : ∀ applied, result₂.2 = .ok applied → ShowsLoaded result₂.1 applied.updates)
    (wallMs : ℕ) (id : Option ℕ) (hguard₁ : (s.settle shared wallMs id result₁).1.Guarded)
    (hguard₂ : (t.settle shared wallMs id result₂).1.Guarded) :
    (s.settle shared wallMs id result₁).1.Alike pending (t.settle shared wallMs id result₂).1 := by
  have hkeeps₁ := @keepsSessions_settle shared s wallMs id result₁
  have hkeeps₂ := @keepsSessions_settle shared t wallMs id result₂
  have hplayer₁ := @player_settle shared s wallMs id result₁
  have hplayer₂ := @player_settle shared t wallMs id result₂
  obtain ⟨after₁, told₁⟩ := result₁
  obtain ⟨after₂, told₂⟩ := result₂
  have htold : told told₁ = told told₂ := congrArg Prod.snd houtcome
  cases told₁ with
  | error fault₁ =>
    cases told₂ with
    | ok applied => cases htold
    | error fault₂ =>
      obtain rfl : fault₁ = fault₂ := Except.error.inj htold
      cases fault₁ with
      | panic => exact h.replace hplayer h.peers
      | refused refusal =>
        have hbase := h.replace hplayer h.peers
        cases id with
        | none => exact hbase
        | some id =>
          exact hbase.onPeer id (Alike.blind_bySession shared fun session =>
            (refusalFrame wallMs refusal session).toList)
  | ok applied₁ =>
    cases told₂ with
    | error fault => cases htold
    | ok applied₂ =>
      have hbare : applied₁.updates.map ReceiverUpdate.bare =
          applied₂.updates.map ReceiverUpdate.bare := Except.ok.inj htold
      refine h.sendAll hplayer _ _ fun other peer hpeer => ?_
      cases hv3 : peer.session.isV3 with
      | false =>
        exact framesFor_eq hbare (fun update _ => readsBare_of_old hv3 wallMs update)
          (fun update _ => readsBare_of_old hv3 wallMs update) _
      | true =>
        rcases hexact with hv4 | hsame
        · obtain ⟨peer', hpeer', hsession⟩ := h.exists_peer hpeer
          have hheaderless₁ := hguard₁.headerless hkeeps₁ hpeer hv3 (hplayer₁ ▸ hv4)
          have hv4' : after₂.fromV4 = true := by
            rw [← Player.fromV4_bare, ← hplayer.bare, Player.fromV4_bare, hv4]
          have hheaderless₂ := hguard₂.headerless hkeeps₂ hpeer' (hsession ▸ hv3)
            (hplayer₂ ▸ hv4')
          rw [hplayer₁] at hheaderless₁
          rw [hplayer₂] at hheaderless₂
          exact framesFor_eq hbare
            (readsBare_of_shown (hshows₁ _ rfl) hheaderless₁ wallMs _)
            (readsBare_of_shown (hshows₂ _ rfl) hheaderless₂ wallMs _) _
        · have hupdates : applied₁.updates = applied₂.updates := Except.ok.inj hsame
          rw [hupdates]

/-! ### Operations -/

/-- An operation, perhaps with updates that show no item after its own. -/
theorem Alike.operate (h : s.Alike pending t) (hs : s.player.WellFormed) (ht : t.player.WellFormed)
    (op : Operation) {last : List ReceiverUpdate} (hlast : ∀ update ∈ last, update.shown? = none)
    (wallMs : ℕ) (id : Option ℕ) (hguard₁ : (s.settle shared wallMs id
      (Player.extended [] last (s.player.apply shared.lib op))).1.Guarded)
    (hguard₂ : (t.settle shared wallMs id
      (Player.extended [] last (t.player.apply shared.lib op))).1.Guarded) :
    (s.settle shared wallMs id (Player.extended [] last (s.player.apply shared.lib op))).1.Alike pending
      (t.settle shared wallMs id (Player.extended [] last (t.player.apply shared.lib op))).1 := by
  obtain ⟨hplayer, hexact⟩ := h.player.apply shared.lib hs op
  have houtcome := Player.outcome_apply shared.lib h.player.bare op
  have hplayer' : (Player.extended [] last (s.player.apply shared.lib op)).1.Alike
      (Player.extended [] last (t.player.apply shared.lib op)).1 := hplayer
  refine h.settle hplayer' (Player.outcome_extended houtcome rfl last) ?_
    (Player.showsLoaded_extended (fun applied hok =>
      Player.showsLoaded_apply shared.lib hs op (Prod.ext rfl hok)) hlast)
    (Player.showsLoaded_extended (fun applied hok =>
      Player.showsLoaded_apply shared.lib ht op (Prod.ext rfl hok)) hlast)
    wallMs id hguard₁ hguard₂
  rcases hexact with hv4 | hsame
  · exact .inl hv4
  · exact .inr (Player.updates?_extended hsame [] last)

theorem Alike.perform (h : s.Alike pending t) (hs : s.player.WellFormed) (ht : t.player.WellFormed)
    (op : Operation) (wallMs : ℕ) (id : Option ℕ)
    (hguard₁ : (s.settle shared wallMs id (s.player.apply shared.lib op)).1.Guarded)
    (hguard₂ : (t.settle shared wallMs id (t.player.apply shared.lib op)).1.Guarded) :
    (s.settle shared wallMs id (s.player.apply shared.lib op)).1.Alike pending
      (t.settle shared wallMs id (t.player.apply shared.lib op)).1 := by
  rw [← Player.extended_nil (s.player.apply shared.lib op)] at hguard₁ ⊢
  rw [← Player.extended_nil (t.player.apply shared.lib op)] at hguard₂ ⊢
  exact h.operate hs ht op (fun _ hnil => absurd hnil not_mem_nil) wallMs id hguard₁ hguard₂

/-! ### Commands -/

theorem Alike.applyOperation (h : s.Alike pending t) (hs : s.player.WellFormed)
    (ht : t.player.WellFormed) (env : Env) (id : ℕ) (command : V4Command) (op : Operation)
    (hguard₁ : (s.applyOperation shared env id command op).1.Guarded)
    (hguard₂ : (t.applyOperation shared env id command op).1.Guarded) :
    (s.applyOperation shared env id command op).1.Alike pending
      (t.applyOperation shared env id command op).1 := by
  obtain ⟨last, hsubset, hspeed⟩ := withSpeed_eq command
  have hlast : ∀ update ∈ last, update.shown? = none := by
    intro update hupdate
    cases mem_singleton.mp (hsubset hupdate)
    rfl
  unfold Inner.applyOperation at hguard₁ hguard₂ ⊢
  simp only [hspeed] at hguard₁ hguard₂ ⊢
  by_cases herror : seekError env command = true
  · simp only [herror, if_true] at hguard₁ hguard₂ ⊢
    exact (h.sendTo id _).operate hs ht op hlast env.wallMs (some id) hguard₁ hguard₂
  · simp only [herror, Bool.false_eq_true, if_false] at hguard₁ hguard₂ ⊢
    exact h.operate hs ht op hlast env.wallMs (some id) hguard₁ hguard₂

theorem Alike.refuse (h : s.Alike pending t) (wallMs : ℕ) (id : Option ℕ) (refusal : Refusal) :
    (s.refuse shared wallMs id refusal).Alike pending (t.refuse shared wallMs id refusal) := by
  cases id with
  | none => exact h
  | some id =>
    exact h.onPeer id (blind_bySession shared fun session =>
      (refusalFrame wallMs refusal session).toList)

/-- An answer neither reads nor changes the player and the peers. -/
theorem answer_tables (s : Inner) (player : Player) (peers : ℕ → Option Peer) (request : UInt32)
    (answer : Answer) : (({ s with player, peers } : Inner).answer request answer).1 =
      { (s.answer request answer).1 with player, peers } := by
  unfold Inner.answer
  by_cases hawaited : request ∈ s.awaited
  · simp only [if_pos hawaited]
  · simp only [if_neg hawaited]

theorem Alike.answer (h : s.Alike pending t) (request : UInt32) (answer : Answer) :
    (s.answer request answer).1.Alike pending (t.answer request answer).1 :=
  h.tables (fun s => (s.answer request answer).1) fun s player peers =>
    answer_tables s player peers request answer

theorem blind_companionHello (shared : Shared) (provider : UInt16) (frame : Frame) :
    Alike.Blind fun peer => ({ peer with
      session := setCompanionProvider provider peer.session } : Peer).sendFrame shared frame := by
  intro peer session hsession
  have hset : setCompanionProvider provider peer.session =
      .v4 { session with companionProvider := some provider } := by rw [hsession]; rfl
  exact Alike.blind_sendFrame shared frame
    { peer with session := setCompanionProvider provider peer.session } _ hset

section

variable (h : s.Alike pending t)
include h

theorem Alike.companionHello (id : ℕ) :
    (s.companionHello shared id).Alike pending (t.companionHello shared id) := by
  have hproviders : t.providers = s.providers := by rw [h.rest]
  have hinserted := h.tables (fun inner => { inner with
    providers := insertProvider s.providers (freeProvider s.providers) }) fun _ _ _ => rfl
  unfold Inner.companionHello
  rw [hproviders]
  exact hinserted.onPeer id (blind_companionHello shared _ _)

theorem Alike.deliverInfo (request : UInt32) (contentType : String)
    (size : Option UInt64) : (s.deliverInfo request contentType size).1.Alike pending
      (t.deliverInfo request contentType size).1 :=
  h.tables (fun s => (s.deliverInfo request contentType size).1) fun s player peers => by
    unfold Inner.deliverInfo
    dsimp only
    split
    · exact answer_tables (s.setRead request none) player peers _ _
    · rfl
    · rfl

theorem Alike.deliverData (part : ResourcePart) :
    (s.deliverData part).1.Alike pending (t.deliverData part).1 :=
  h.tables (fun s => (s.deliverData part).1) fun s player peers => by
    unfold Inner.deliverData
    dsimp only
    split
    · rfl
    · rfl
    · split
      · rfl
      · exact answer_tables (s.setRead part.requestId none) player peers _ _
      · exact answer_tables (s.setRead part.requestId none) player peers _ _
      · exact answer_tables (s.setRead part.requestId none) player peers _ _

theorem Alike.answerMirroring (env : Env) (id : ℕ) (sessionId : UInt16) :
    (s.answerMirroring shared env id sessionId).1.Alike pending
      (t.answerMirroring shared env id sessionId).1 := by
  unfold Inner.answerMirroring
  split
  · split
    · exact h.sendTo id _
    · exact h.refuse env.wallMs (some id) _
  · exact h.refuse env.wallMs (some id) _

theorem Alike.applyV4 (hs : s.player.WellFormed) (ht : t.player.WellFormed)
    (env : Env) (id : ℕ) (info : Option DeviceInfo) (command : V4Command)
    (hguard₁ : (s.applyV4 shared env id info command).1.Guarded)
    (hguard₂ : (t.applyV4 shared env id info command).1.Guarded) :
    (s.applyV4 shared env id info command).1.Alike pending
      (t.applyV4 shared env id info command).1 := by
  unfold Inner.applyV4 at hguard₁ hguard₂ ⊢
  cases hop : operationV4 shared env command with
  | some op =>
    simp only [hop] at hguard₁ hguard₂ ⊢
    exact h.applyOperation hs ht env id command op hguard₁ hguard₂
  | none =>
    dsimp only
    split
    · exact h.companionHello id
    · exact h.deliverInfo _ _ _
    · exact h.deliverData _
    · exact h.answerMirroring env id _
    · split
      · exact h
      · exact h.refuse env.wallMs (some id) _

theorem Alike.applyJson (hs : s.player.WellFormed) (ht : t.player.WellFormed)
    (env : Env) (id : ℕ) (info : Option DeviceInfo) (command : SenderCommand)
    (hguard₁ : (s.applyJson shared env id info command).1.Guarded)
    (hguard₂ : (t.applyJson shared env id info command).1.Guarded) :
    (s.applyJson shared env id info command).1.Alike pending
      (t.applyJson shared env id info command).1 :=
  h.perform hs ht (operation shared env command) env.wallMs (some id) hguard₁ hguard₂

end

/-- The command that `id` carries, if it is one for the player, is accepted. -/
def Accepts (shared : Shared) (inner : Inner) (env : Env) (id : ℕ) : Prop :=
  ∀ peer command op, inner.peers id = some peer → peer.actor = .carrying (.v4 command) →
    operationV4 shared env command = some op →
      ∃ applied, (inner.player.apply shared.lib op).2 = .ok applied

theorem resolveSource_bare (host : Option LocalHost) (source : LoadSource) :
    resolveSource host source.bare = (resolveSource host source).bare := by
  cases source with
  | single item => exact congrArg LoadSource.single (resolveItem_bare host item)
  | queue items startIndex autoplay =>
    simp only [LoadSource.bare, resolveSource, map_map, Function.comp_def,
      resolveItem_bare]

/-- Two commands of the originator that differ in headers alone, both accepted.
-/
theorem Alike.applyAlike (h : s.Alike pending t) (hs : s.player.WellFormed)
    (ht : t.player.WellFormed)
    (env : Env) (id : ℕ) (info : Option DeviceInfo) {command₁ command₂ : V4Command}
    (hcommand : command₁.Alike command₂)
    (haccepts₁ : ∀ op, operationV4 shared env command₁ = some op →
      ∃ applied, (s.player.apply shared.lib op).2 = .ok applied)
    (haccepts₂ : ∀ op, operationV4 shared env command₂ = some op →
      ∃ applied, (t.player.apply shared.lib op).2 = .ok applied)
    (hguard₁ : (s.applyV4 shared env id info command₁).1.Guarded)
    (hguard₂ : (t.applyV4 shared env id info command₂).1.Guarded) :
    (s.applyV4 shared env id info command₁).1.Alike pending
      (t.applyV4 shared env id info command₂).1 := by
  cases hcommand with
  | @load source₁ source₂ raw₁ raw₂ hsource hraw =>
    obtain ⟨applied₁, hok₁⟩ := haccepts₁ _ rfl
    obtain ⟨applied₂, hok₂⟩ := haccepts₂ _ rfl
    have hresolved : (resolveSource shared.localHost source₁).bare =
        (resolveSource shared.localHost source₂).bare := by
      rw [← resolveSource_bare, hsource, resolveSource_bare]
    have houtcome := outcome_loadV4 h.player.bare hresolved hraw hok₁ hok₂
    have hv4 := loadV4_fromV4 hok₁
    exact h.settle ⟨congrArg Prod.fst houtcome, .inr hv4⟩ houtcome (.inl hv4)
      (fun applied hok => Player.showsLoaded_apply shared.lib hs (.loadV4 _ _) (Prod.ext rfl hok))
      (fun applied hok => Player.showsLoaded_apply shared.lib ht (.loadV4 _ _) (Prod.ext rfl hok))
      env.wallMs (some id) hguard₁ hguard₂
  | @queueInsert item₁ item₂ duration position raw₁ raw₂ hitem hraw =>
    obtain ⟨applied₁, hok₁⟩ := haccepts₁ _ rfl
    obtain ⟨applied₂, hok₂⟩ := haccepts₂ _ rfl
    have hresolved : (resolveItem shared.localHost item₁).bare =
        (resolveItem shared.localHost item₂).bare := by
      rw [← resolveItem_bare, hitem, resolveItem_bare]
    have houtcome := outcome_queueInsertV4 h.player.bare hresolved hraw hok₁ hok₂
    have hv4 := queueInsertV4_fromV4 hs hok₁
    exact h.settle ⟨congrArg Prod.fst houtcome, .inr hv4⟩ houtcome (.inl hv4)
      (fun applied hok => Player.showsLoaded_apply shared.lib hs (.queueInsertV4 _ _ _)
        (Prod.ext rfl hok))
      (fun applied hok => Player.showsLoaded_apply shared.lib ht (.queueInsertV4 _ _ _)
        (Prod.ext rfl hok))
      env.wallMs (some id) hguard₁ hguard₂

/-- Once the command of a peer is applied it is not pending any more. -/
theorem Alike.applyCommand (h : s.Alike pending t) (hs : s.player.WellFormed)
    (ht : t.player.WellFormed) (env : Env) (id : ℕ)
    (haccepts : pending id → Accepts shared s env id ∧ Accepts shared t env id)
    (hguard₁ : (s.applyCommand shared env id).1.Guarded)
    (hguard₂ : (t.applyCommand shared env id).1.Guarded) :
    (s.applyCommand shared env id).1.Alike (fun other => pending other ∧ other ≠ id)
      (t.applyCommand shared env id).1 := by
  have hpeers := h.peers id
  unfold Inner.applyCommand at hguard₁ hguard₂ ⊢
  generalize hp : s.peers id = first at hpeers hguard₁ ⊢
  generalize hq : t.peers id = second at hpeers hguard₂ ⊢
  have hset (peer : Peer) : (s.setPeer id (some { peer with actor := .reading })).Alike
      (fun other => pending other ∧ other ≠ id)
      (t.setPeer id (some { peer with actor := .reading })) :=
    (h.setPeer id _).settled ((setPeer_self ..).trans (setPeer_self ..).symm)
  cases hpeers with
  | same =>
    have hunchanged := h.settled (hp.trans hq.symm)
    cases first with
    | none => exact hunchanged
    | some peer =>
      dsimp only at hguard₁ hguard₂ ⊢
      cases hactor : peer.actor with
      | reading | closing => simpa only [hactor] using hunchanged
      | carrying command =>
        simp only [hactor] at hguard₁ hguard₂ ⊢
        cases command with
        | json command => exact (hset peer).applyJson hs ht env id _ command hguard₁ hguard₂
        | v4 command => exact (hset peer).applyV4 hs ht env id _ command hguard₁ hguard₂
  | carrying howned peer session hsession hcommand =>
    obtain ⟨haccepts₁, haccepts₂⟩ := haccepts howned
    dsimp only at hguard₁ hguard₂ ⊢
    exact (hset peer).applyAlike hs ht env id _ hcommand
      (fun op hop => haccepts₁ _ _ op hp rfl hop) (fun op hop => haccepts₂ _ _ op hq rfl hop)
      hguard₁ hguard₂

/-! ### Frames in -/

/-- Only the `Initial` of a version 3 session reads what is playing. -/
theorem onFrame_playData (session : Session) (now wallMs : ℕ) (receiver : ReceiverIdentity)
    (play₁ play₂ : Option PlayMessage) (volume : Double) (frame : JsonInbound) :
    session.onFrame now ⟨wallMs, receiver, play₁, volume⟩ frame =
        session.onFrame now ⟨wallMs, receiver, play₂, volume⟩ frame ∨
      ∃ after reaction₁ reaction₂, after.version = some .v3 ∧
        session.onFrame now ⟨wallMs, receiver, play₁, volume⟩ frame = .ok (after, reaction₁) ∧
        session.onFrame now ⟨wallMs, receiver, play₂, volume⟩ frame = .ok (after, reaction₂) := by
  unfold Session.onFrame
  dsimp only
  cases session.version with
  | some version => exact .inl rfl
  | none =>
    dsimp only
    split
    next version =>
      cases version with
      | none => exact .inl rfl
      | some version =>
        rcases version with _ | _ | _ | version
        · exact .inl rfl
        · exact .inl rfl
        · exact .inl rfl
        · exact .inr ⟨_, _, _, rfl, rfl, rfl⟩
    · exact .inl rfl

theorem playData_eq (h : player₁.Alike player₂) (hheaderless₁ : player₁.fromV4 = true →
      ∀ loaded, player₁.loaded = some loaded → loaded.Headerless)
    (hheaderless₂ : player₂.fromV4 = true →
      ∀ loaded, player₂.loaded = some loaded → loaded.Headerless) :
    player₁.playData = player₂.playData := by
  rcases h.eq_or with rfl | hv4
  · rfl
  · have hv4' : player₂.fromV4 = true := by
      rw [← Player.fromV4_bare, ← h.bare, Player.fromV4_bare, hv4]
    have hbare : player₁.playData.map PlayMessage.bare = player₂.playData.map PlayMessage.bare := by
      have hloaded := congrArg (fun player : Player => player.loaded.map Loaded.play) h.bare
      simpa only [Player.bare, Option.map_map, Player.playData, Function.comp_def, Loaded.bare]
        using hloaded
    have hsame : ∀ player : Player, (∀ loaded, player.loaded = some loaded → loaded.Headerless) →
        player.playData.map PlayMessage.bare = player.playData := by
      intro player hheaderless
      cases hloaded : player.loaded with
      | none => rw [Player.playData, hloaded]; rfl
      | some loaded =>
        rw [Player.playData, hloaded]
        exact congrArg some (PlayMessage.bare_of_headerless (hheaderless loaded hloaded).play)
    rw [← hsame player₁ (hheaderless₁ hv4), hbare, hsame player₂ (hheaderless₂ hv4')]

/-- A session that has just become one of version 3 is connected. -/
theorem Guarded.headerless_act {id : ℕ} {peer : Peer} {session : Session} {replies : List Frame}
    {command : Option Command} (hv3 : session.version = some .v3)
    (h : (s.act shared id peer (.json session) replies command).Guarded)
    (hv4 : s.player.fromV4 = true) :
    ∀ loaded, s.player.loaded = some loaded → loaded.Headerless := by
  intro loaded hloaded
  have hfrom : loaded.fromV4 = true := by
    rw [Player.fromV4, hloaded] at hv4
    exact hv4
  refine h loaded hloaded hfrom ⟨id, _, setPeer_self .., ?_⟩
  rw [sendFrames_session]
  simp only [PeerSession.isV3, hv3, beq_self_eq_true]

theorem Alike.jsonFrame (h : s.Alike pending t) (id now wallMs : ℕ) (frame : JsonInbound)
    (hguard₁ : (s.jsonFrame shared id now wallMs frame).Guarded)
    (hguard₂ : (t.jsonFrame shared id now wallMs frame).Guarded) :
    (s.jsonFrame shared id now wallMs frame).Alike pending
      (t.jsonFrame shared id now wallMs frame) := by
  have hpeers := h.peers id
  unfold Inner.jsonFrame at hguard₁ hguard₂ ⊢
  generalize hp : s.peers id = first at hpeers hguard₁ ⊢
  generalize hq : t.peers id = second at hpeers hguard₂ ⊢
  cases hpeers with
  | carrying howned peer session hsession hcommand => exact h
  | same =>
    cases first with
    | none => exact h
    | some peer =>
      dsimp only at hguard₁ hguard₂ ⊢
      split
      next session hactor hsession =>
        simp only [hactor, hsession, ← h.player.volume] at hguard₁ hguard₂ ⊢
        rcases onFrame_playData session now wallMs shared.identity s.player.playData
          t.player.playData s.player.volume frame with hsame |
            ⟨after, reaction₁, reaction₂, hv3, hfirst, hsecond⟩
        · rw [hsame]
          split
          · exact h.setPeer id _
          · exact h.setPeer id _
        · simp only [hfirst] at hguard₁ ⊢
          simp only [hsecond] at hguard₂ ⊢
          have hplay : s.player.playData = t.player.playData :=
            playData_eq h.player (hguard₁.headerless_act hv3) (hguard₂.headerless_act hv3)
          rw [hplay, hsecond] at hfirst
          obtain rfl : reaction₂ = reaction₁ := (Prod.mk.inj (Except.ok.inj hfirst)).2
          exact h.setPeer id _
      · exact h

theorem Alike.v4Frame (h : s.Alike pending t) (id now : ℕ) (frame : RawFrame) :
    (s.v4Frame shared id now frame).Alike pending (t.v4Frame shared id now frame) := by
  have hpeers := h.peers id
  unfold Inner.v4Frame
  generalize s.peers id = first at hpeers ⊢
  generalize t.peers id = second at hpeers ⊢
  cases hpeers with
  | carrying howned peer session hsession hcommand => exact h
  | same =>
    cases first with
    | none => exact h
    | some peer =>
      dsimp only
      split
      · split
        · exact h.setPeer id _
        · exact h.setPeer id _
      · exact h

/-! ### Everything else -/

section

variable (h : s.Alike pending t)
include h

theorem Alike.introduction :
    s.introduction shared = t.introduction shared := by
  have hraw : s.player.v4SingleRaw.map strippedRelayFrame =
      t.player.v4SingleRaw.map strippedRelayFrame := by
    have hbare := congrArg (fun player : Player =>
      player.v4SingleRaw.map strippedRelayFrame) h.player.bare
    have hstrip : ∀ player : Player, player.bare.v4SingleRaw.map strippedRelayFrame =
        player.v4SingleRaw.map strippedRelayFrame := by
      rintro ⟨_ | loaded, state, volume⟩
      · rfl
      · simp only [Player.v4SingleRaw, Player.bare, Option.map_some, Option.bind_some, Loaded.bare,
          Option.map_map, Function.comp_def, RawPacket.strippedRelayFrame_bare]
    rw [← hstrip s.player, hbare, hstrip t.player]
  unfold Inner.introduction
  rw [h.player.volume, h.player.snapshot]
  generalize s.player.v4SingleRaw = first at hraw
  generalize t.player.v4SingleRaw = second at hraw
  cases first with
  | none =>
    cases second with
    | none => rfl
    | some raw => cases hraw
  | some raw₁ =>
    cases second with
    | none => cases hraw
    | some raw₂ =>
      have hframe : strippedRelayFrame raw₁ = strippedRelayFrame raw₂ := Option.some.inj hraw
      dsimp only
      rw [hframe]

/-- A connection that comes is the same in both. -/
theorem Alike.connect (peer : Peer) :
    ({ s.setPeer s.nextPeer (some peer) with nextPeer := s.nextPeer + 1 } : Inner).Alike pending
      { t.setPeer t.nextPeer (some peer) with nextPeer := t.nextPeer + 1 } := by
  have hnext : t.nextPeer = s.nextPeer := by rw [h.rest]
  rw [hnext]
  exact (h.setPeer s.nextPeer (some peer)).tables
    (fun inner => { inner with nextPeer := s.nextPeer + 1 }) fun _ _ _ => rfl

/-- So is one that leaves. -/
theorem Alike.leave (id : ℕ) : (s.leave id).Alike pending (t.leave id) := by
  have hpeers := h.peers id
  have hleaving : t.leaving = s.leaving := by rw [h.rest]
  unfold Inner.leave
  rw [hleaving]
  generalize s.peers id = first at hpeers ⊢
  generalize t.peers id = second at hpeers ⊢
  cases hpeers with
  | carrying howned peer session hsession hcommand => exact h
  | same =>
    cases first with
    | none => exact h
    | some peer =>
      have hgone (leaving : List Leaving) :=
        (h.setPeer id none).tables (fun inner => { inner with leaving }) fun _ _ _ => rfl
      dsimp only
      split
      · exact h
      · exact hgone _
      · exact hgone _

theorem Alike.abandon (id : ℕ) :
    (s.abandon id).1.Alike pending (t.abandon id).1 :=
  h.tables (fun s => (s.abandon id).1) fun s player peers => by
    unfold Inner.abandon
    dsimp only
    split <;> rfl

theorem Alike.release (id : ℕ) : (s.release id).Alike pending (t.release id) :=
  h.tables (fun s => s.release id) fun s player peers => by
    unfold Inner.release
    dsimp only
    split <;> rfl

theorem Alike.providerPeer (provider : UInt16) :
    s.providerPeer provider = t.providerPeer provider := by
  have hnext : t.nextPeer = s.nextPeer := by rw [h.rest]
  unfold Inner.providerPeer
  rw [hnext]
  congr 1
  funext id
  have hpeers := h.peers id
  generalize s.peers id = first at hpeers ⊢
  generalize t.peers id = second at hpeers ⊢
  cases hpeers <;> rfl

theorem Alike.register (request : UInt32) (url : CompanionUrl) (ask : Ask) :
    (s.register shared request url ask).1.Alike pending (t.register shared request url ask).1 := by
  have hreserved : t.reserved = s.reserved := by rw [h.rest]
  unfold Inner.register
  rw [hreserved]
  by_cases hmem : request ∈ s.reserved
  · simp only [if_pos hmem]
    have herased := h.tables (fun inner => { inner with reserved := s.reserved.erase request })
      fun _ _ _ => rfl
    rw [herased.providerPeer url.provider]
    split
    · exact herased
    next owner _ =>
      have hawaited := (herased.answer request .wentAway).tables
        (fun inner => { inner with awaited := request :: inner.awaited }) fun _ _ _ => rfl
      have hread := hawaited.tables
        (fun inner => inner.setRead request (some ⟨url, ask.pending⟩)) fun _ _ _ => rfl
      exact hread.sendTo owner (ask.frame request url)
  · simp only [if_neg hmem]
    exact h

end

theorem blind_tick (shared : Shared) (now : ℕ) : Alike.Blind (tickOne shared now) :=
  fun peer session hsession => ⟨peer, session, hsession, fun _ => rfl⟩

theorem Alike.progress (h : s.Alike pending t) (env : Env) (due : ℕ → Bool) :
    (s.progress shared env due).Alike pending (t.progress shared env due) := by
  unfold Inner.progress
  rw [h.player.snapshot]
  dsimp only
  split
  · exact h
  · exact h.sendAll h.player
      (fun id session => if due id then
        (progressFrame env.wallMs (t.player.snapshot env.progress) session).toList else [])
      (fun id session => if due id then
        (progressFrame env.wallMs (t.player.snapshot env.progress) session).toList else [])
      fun _ _ _ => rfl

/-- Media that cannot be obtained is told alike. -/
theorem Alike.mediaFailed (h : s.Alike pending t) (hs : s.player.WellFormed)
    (ht : t.player.WellFormed)
    (env : Env) (message : String) (hguard₁ : (s.mediaFailed shared env message).1.Guarded)
    (hguard₂ : (t.mediaFailed shared env message).1.Guarded) :
    (s.mediaFailed shared env message).1.Alike pending (t.mediaFailed shared env message).1 := by
  have htold : (s.broadcast shared env.wallMs [.error message .resourceNotFound] none).Alike pending
      (t.broadcast shared env.wallMs [.error message .resourceNotFound] none) :=
    h.sendAll h.player _ _ fun _ _ _ => rfl
  exact htold.perform hs ht .stop env.wallMs none hguard₁ hguard₂

theorem current?_bare (player : Player) :
    player.bare.current? = player.current?.map ResolvedItem.bare := by
  obtain ⟨_ | loaded, state, volume⟩ := player
  · rfl
  · simp only [Player.current?, Player.bare, Option.map_some, Option.bind_some, Loaded.bare,
      getElem?_map]

theorem Alike.currentCompanion (h : s.Alike pending t) :
    s.currentCompanion shared = t.currentCompanion shared := by
  have hcurrent : s.player.current?.map ResolvedItem.bare =
      t.player.current?.map ResolvedItem.bare := by
    rw [← current?_bare, h.player.bare, current?_bare]
  unfold Inner.currentCompanion
  generalize s.player.current? = first at hcurrent ⊢
  generalize t.player.current? = second at hcurrent ⊢
  cases first with
  | none =>
    cases second with
    | none => rfl
    | some item => cases hcurrent
  | some item₁ =>
    cases second with
    | none => cases hcurrent
    | some item₂ =>
      have hitem : item₁.bare = item₂.bare := Option.some.inj hcurrent
      have huri : item₁.request.uri = item₂.request.uri := by
        have huri := congrArg (fun item : ResolvedItem => item.request.uri) hitem
        exact huri
      simp only [Option.bind_some, huri]

/-! ## Steps and runs -/

/-- A press on the remote control is taken alike. -/
theorem Alike.issue (h : s.Alike pending t) (hs : s.player.WellFormed) (ht : t.player.WellFormed)
    (env : Env) (panel : Panel) (hguard₁ : (s.issue shared env panel).1.Guarded)
    (hguard₂ : (t.issue shared env panel).1.Guarded) :
    (s.issue shared env panel).1.Alike pending (t.issue shared env panel).1 := by
  cases panel with
  | mute muted => exact h
  | next => exact h.perform hs ht (.step true) env.wallMs none hguard₁ hguard₂
  | previous => exact h.perform hs ht (.step false) env.wallMs none hguard₁ hguard₂
  | play => exact h.perform hs ht .resume env.wallMs none hguard₁ hguard₂
  | pause => exact h.perform hs ht .pause env.wallMs none hguard₁ hguard₂
  | stop => exact h.perform hs ht .stop env.wallMs none hguard₁ hguard₂
  | seek target => exact h.perform hs ht (.seek _) env.wallMs none hguard₁ hguard₂
  | volume level => exact h.perform hs ht (.setVolume _) env.wallMs none hguard₁ hguard₂

/-- **One guarded step** keeps two receivers alike. -/
theorem Alike.step (h : s.Alike pending t) (hs : s.player.WellFormed) (ht : t.player.WellFormed)
    (action : Action) (haccepts : ∀ env id, action = .applyCommand env id → pending id →
      Accepts shared s env id ∧ Accepts shared t env id)
    (hguard₁ : (s.step shared action).1.Guarded) (hguard₂ : (t.step shared action).1.Guarded) :
    (s.step shared action).1.Alike pending (t.step shared action).1 := by
  cases action with
  | connectJson => exact h.connect _
  | connectV4 now =>
    simp only [Inner.step, Inner.connectV4, h.introduction]
    exact h.connect _
  | jsonFrame id now wallMs frame => exact h.jsonFrame id now wallMs frame hguard₁ hguard₂
  | v4Frame id now frame => exact h.v4Frame id now frame
  | applyCommand env id =>
    exact (h.applyCommand hs ht env id (haccepts env id rfl) hguard₁ hguard₂).mono
      fun _ hpending => hpending.1
  | leave id => exact h.leave id
  | abandon id => exact h.abandon id
  | release id => exact h.release id
  | issue env panel => exact h.issue hs ht env panel hguard₁ hguard₂
  | mediaEnded env ending =>
    exact h.perform hs ht (.mediaEnded ending) env.wallMs none hguard₁ hguard₂
  | verify url message =>
    have hmissing : t.missing = s.missing := by rw [h.rest]
    simp only [Inner.step, h.currentCompanion, hmissing]
    split
    · exact h.tables (fun inner => { inner with missing := message :: s.missing })
        fun _ _ _ => rfl
    · exact h
  | mediaFailed env message =>
    have hmissing : t.missing = s.missing := by rw [h.rest]
    simp only [Inner.step, hmissing] at hguard₁ hguard₂ ⊢
    by_cases hmem : message ∈ s.missing
    · simp only [if_pos hmem] at hguard₁ hguard₂ ⊢
      exact (h.tables (fun inner => { inner with missing := s.missing.erase message })
        fun _ _ _ => rfl).mediaFailed hs ht env message hguard₁ hguard₂
    · simp only [if_neg hmem]
      exact h
  | progress env due => exact h.progress env due
  | tick id now => exact h.onPeer id (blind_tick shared now)
  | written id =>
    exact h.onPeer id fun peer session hsession =>
      ⟨{ peer with queued := peer.queued - 1 }, session, hsession, fun _ => rfl⟩
  | writerStopped id =>
    exact h.onPeer id fun peer session hsession =>
      ⟨{ peer with writing := false }, session, hsession, fun _ => rfl⟩
  | reserve =>
    exact h.tables (fun inner => { inner with
      nextRequest := inner.nextRequest + 1
      reserved := inner.nextRequest :: inner.reserved }) fun _ _ _ => rfl
  | register request url ask => exact h.register request url ask
  | timeOut request =>
    exact h.tables (fun inner => (inner.step shared (.timeOut request)).1)
      fun s player peers => by
        simp only [Inner.step]
        split
        · split
          · exact answer_tables { s with expired := request :: s.expired } player peers _ _
          · rfl
        · rfl
  | forget request =>
    exact h.tables (fun inner => (inner.step shared (.forget request)).1)
      fun s player peers => by
        simp only [Inner.step]
        split
        · exact congrArg (fun inner : Inner => inner.setRead request none)
            (answer_tables { s with expired := s.expired.erase request } player peers _ _)
        · rfl

/-- A message of the originator: it goes through the session and is carried. -/
theorem alike_carrying (s : Inner) (id : ℕ) (peer : Peer) (session : SessionV4)
    {command₁ command₂ : V4Command} (hcommand : command₁.Alike command₂) :
    (s.act shared id peer (.v4 session) [] (some (.v4 command₁))).Alike (· = id)
      (s.act shared id peer (.v4 session) [] (some (.v4 command₂))) where
  player := .refl _
  peers := fun other => by
    by_cases hother : other = id
    · subst hother
      rw [act, act, setPeer_self, setPeer_self]
      exact .carrying rfl { peer with session := .v4 session } session rfl hcommand
    · rw [act, act, setPeer_of_ne _ hother, setPeer_of_ne _ hother]
      exact .same _
  rest := rfl

/-- The packet itself: from one state to two that are alike, one sender waiting
to have its command applied. -/
theorem alike_packet (s : Inner) (id now : ℕ) {packet₁ packet₂ : Packet}
    (h : packet₁.Alike packet₂) : (s.v4Frame shared id now (.flatbuf (some packet₁))).Alike (· = id)
      (s.v4Frame shared id now (.flatbuf (some packet₂))) := by
  unfold Inner.v4Frame
  split
  next peer hpeer =>
    split
    next session hactor hsession =>
      cases h with
      | @load source₁ source₂ hsource =>
        refine alike_carrying s id peer _ (.load ?_ (congrArg RawPacket.load hsource))
        rw [← sourceFromFlat_bare, hsource, sourceFromFlat_bare]
      | @queueInsert item₁ item₂ hitem position =>
        cases position with
        | none => exact .refl _ _
        | some position =>
          have hmedia : item₁.mediaItem.bare = item₂.mediaItem.bare :=
            congrArg FlatQueueItem.mediaItem hitem
          have hduration : item₁.playbackDuration = item₂.playbackDuration := by
            have hduration := congrArg FlatQueueItem.playbackDuration hitem
            exact hduration
          simp only [SessionV4.onFrame, parseFlatbuf, SessionV4.onMessage, hduration]
          refine alike_carrying s id peer _ (.queueInsert _ position ?_ ?_)
          · rw [← fromFlat_bare, hmedia, fromFlat_bare]
          · rw [RawPacket.bare, hitem, RawPacket.bare]
    · exact .refl _ _
  · exact .refl _ _

/-- The receiver after some steps, a packet of one sender, and more steps. -/
def withPacket (shared : Shared) (before : List Action) (id now : ℕ) (packet : Packet)
    (after : List Action) : Inner :=
  run shared (before ++ .v4Frame id now (.flatbuf (some packet)) :: after)

/-- The command of `id` has yet to be applied. -/
def Waiting (id : ℕ) (steps : List Action) : Prop := ∀ env, .applyCommand env id ∉ steps

theorem withPacket_concat (shared : Shared) (before : List Action) (id now : ℕ) (packet : Packet)
    (after : List Action) (action : Action) :
    withPacket shared before id now packet (after ++ [action]) =
      ((withPacket shared before id now packet after).step shared action).1 := by
  rw [withPacket, ← cons_append, ← append_assoc, run_concat]
  rfl

/-- Of a packet whose command is accepted when it is applied, the guarded steps
that follow leave only alike receivers. -/
theorem alike_withPacket (shared : Shared) (before : List Action) (id now : ℕ)
    {packet₁ packet₂ : Packet} (h : packet₁.Alike packet₂) (after : List Action)
    (haccepted : ∀ steps env, steps ++ [.applyCommand env id] <+: after → Waiting id steps →
      Accepts shared (withPacket shared before id now packet₁ steps) env id ∧
        Accepts shared (withPacket shared before id now packet₂ steps) env id)
    (hguarded : ∀ steps, steps <+: after →
      (withPacket shared before id now packet₁ steps).Guarded ∧
        (withPacket shared before id now packet₂ steps).Guarded) :
    (withPacket shared before id now packet₁ after).Alike (fun other => other = id ∧ Waiting id after)
      (withPacket shared before id now packet₂ after) := by
  induction after using List.reverseRecOn with
  | nil =>
    rw [withPacket, withPacket, run_concat, run_concat]
    exact (alike_packet (run shared before) id now h).mono
      fun other hother => ⟨hother, fun _ => not_mem_nil⟩
  | append_singleton after action ih =>
    have hguard := hguarded (after ++ [action]) prefix_rfl
    have halike := ih
      (fun steps env hsteps => haccepted steps env (hsteps.trans (prefix_append ..)))
      (fun steps hsteps => hguarded steps (hsteps.trans (prefix_append ..)))
    have hs := wellFormed_run shared
      (before ++ .v4Frame id now (.flatbuf (some packet₁)) :: after)
    have ht := wellFormed_run shared
      (before ++ .v4Frame id now (.flatbuf (some packet₂)) :: after)
    rw [withPacket_concat, withPacket_concat] at hguard ⊢
    by_cases happly : ∃ env, action = .applyCommand env id
    · -- the one step after which nobody waits
      obtain ⟨env, rfl⟩ := happly
      refine (halike.applyCommand hs ht env id (fun hwaits => ?_) hguard.1 hguard.2).mono
        fun other hother => absurd hother.1.1 hother.2
      exact haccepted after env prefix_rfl hwaits.2
    · refine (halike.step hs ht action (fun env other haction hother => ?_) hguard.1
        hguard.2).mono fun other hother => ⟨hother.1, fun env hmem => ?_⟩
      · exact absurd ⟨env, hother.1 ▸ haction⟩ happly
      · rcases mem_append.mp hmem with hmem | hmem
        · exact hother.2 env hmem
        · exact happly ⟨env, (mem_singleton.mp hmem).symm⟩

/-- What is alike has sent the same. -/
theorem Alike.sentTo (h : s.Alike pending t) (id : ℕ) : s.sentTo id = t.sentTo id := by
  have hpeers := h.peers id
  unfold Inner.sentTo
  generalize s.peers id = first at hpeers
  generalize t.peers id = second at hpeers
  cases hpeers <;> rfl

/-- **Request headers stay with us** in a run that is guarded: two packets that
differ in headers alone, both accepted, lead to the same frames for every
connection. -/
theorem headers_confined (shared : Shared) (before : List Action) (id now : ℕ)
    {packet₁ packet₂ : Packet} (h : packet₁.Alike packet₂) (after : List Action)
    (haccepted : ∀ steps env, steps ++ [.applyCommand env id] <+: after → Waiting id steps →
      Accepts shared (withPacket shared before id now packet₁ steps) env id ∧
        Accepts shared (withPacket shared before id now packet₂ steps) env id)
    (hguarded : ∀ steps, steps <+: after →
      (withPacket shared before id now packet₁ steps).Guarded ∧
        (withPacket shared before id now packet₂ steps).Guarded) (other : ℕ) :
    (withPacket shared before id now packet₁ after).sentTo other =
      (withPacket shared before id now packet₂ after).sentTo other :=
  (alike_withPacket shared before id now h after haccepted hguarded).sentTo other

/-! ### Two tokens -/

def tokenLoad (token : String) : Packet :=
  .load (some (.single ⟨"video/mp4", "http://h/v.mp4", none, none, none,
    some [("Authorization", token)], none, none, none, none⟩))

/-- A sender of this version and one of version 4 connect. -/
def exampleBefore (version : ℕ) : List Action :=
  [.connectJson, .connectV4 0, .jsonFrame 0 0 0 (.version (some version))]

/-- The receiver once the load of a token has come, and these steps after it. -/
def exampleRun (version : ℕ) (token : String) (after : List Action) : Inner :=
  withPacket exampleShared (exampleBefore version) 1 0 (tokenLoad token) after

theorem accepts_of {inner : Inner} {env : Env} {id : ℕ} {peer : Peer} {command : V4Command}
    (hpeer : inner.peers id = some peer) (hactor : peer.actor = .carrying (.v4 command))
    (haccepts : ∀ op, operationV4 shared env command = some op →
      ∃ applied, (inner.player.apply shared.lib op).2 = .ok applied) :
    Accepts shared inner env id := by
  intro peer' command' op hpeer' hactor' hop
  cases hpeer.symm.trans hpeer'
  cases hactor.symm.trans hactor'
  exact haccepts op hop

theorem accepts_exampleRun {version : ℕ} (hversion : version = 2 ∨ version = 3) {token : String}
    (htoken : token = "Bearer a" ∨ token = "Bearer b") :
    Accepts exampleShared (exampleRun version token []) exampleEnv 1 := by
  rcases hversion with rfl | rfl <;> rcases htoken with rfl | rfl <;>
  · refine accepts_of rfl rfl fun op hop => ?_
    cases hop
    exact ⟨_, rfl⟩

theorem guarded_exampleRun {token : String} (htoken : token = "Bearer a" ∨ token = "Bearer b")
    {steps : List Action} (hsteps : steps <+: [.applyCommand exampleEnv 1]) :
    (exampleRun 2 token steps).Guarded := by
  rintro loaded - - ⟨id, peer, hpeer, hv3⟩
  have hcases : steps = [] ∨ steps = [.applyCommand exampleEnv 1] := by
    rcases steps with _ | ⟨first, rest⟩
    · exact .inl rfl
    · obtain ⟨rfl, hrest⟩ := cons_prefix_cons.mp hsteps
      exact .inr (by rw [prefix_nil.mp hrest])
  rcases hcases with rfl | rfl <;> rcases htoken with rfl | rfl <;>
  · rcases id with _ | _ | id
    · cases hpeer
      cases hv3
    · cases hpeer
      cases hv3
    · cases hpeer

theorem eq_of_concat_prefix {steps : List Action} {first only : Action}
    (h : steps ++ [first] <+: [only]) : steps = [] ∧ first = only := by
  rcases steps with _ | ⟨other, rest⟩
  · exact ⟨rfl, (cons_prefix_cons.mp h).1⟩
  · have hlength := h.length_le
    simp at hlength

theorem headers_confined_example : (exampleRun 2 "Bearer a" [.applyCommand exampleEnv 1]).sentTo 0 =
      (exampleRun 2 "Bearer b" [.applyCommand exampleEnv 1]).sentTo 0 :=
  @headers_confined exampleShared (exampleBefore 2) 1 0 (tokenLoad "Bearer a")
    (tokenLoad "Bearer b") (.load rfl) [.applyCommand exampleEnv 1]
    (fun steps env hsteps _ => by
      obtain ⟨rfl, haction⟩ := eq_of_concat_prefix hsteps
      cases haction
      exact ⟨accepts_exampleRun (.inl rfl) (.inl rfl), accepts_exampleRun (.inl rfl) (.inr rfl)⟩)
    (fun steps hsteps => ⟨guarded_exampleRun (.inl rfl) hsteps,
      guarded_exampleRun (.inr rfl) hsteps⟩) 0

/-- A version 3 sender reads the token of another in the `PlayUpdate`. -/
theorem headers_reach_version_three : (tokenLoad "Bearer a").Alike (tokenLoad "Bearer b") ∧
      Accepts exampleShared (exampleRun 3 "Bearer a" []) exampleEnv 1 ∧
      Accepts exampleShared (exampleRun 3 "Bearer b" []) exampleEnv 1 ∧
      (exampleRun 3 "Bearer a" [.applyCommand exampleEnv 1]).sentTo 0 ≠
        (exampleRun 3 "Bearer b" [.applyCommand exampleEnv 1]).sentTo 0 :=
  ⟨.load rfl, accepts_exampleRun (.inr rfl) (.inl rfl), accepts_exampleRun (.inr rfl) (.inr rfl),
    by decide +kernel⟩

end Inner

end Castaway.FCast
