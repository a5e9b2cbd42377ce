import Castaway.FCast.Followers
import Castaway.FCast.Sizes

/-!
# What is announced of a load

An operation that brings items has them announced: at once, again whenever one
of them starts or ends, and to every sender that joins later.  `Brings` says
that an operation announces and keeps only what it brought itself and what was
loaded, and `Player.Fits` is what a run keeps when every accepted load is small
enough.
-/

namespace Castaway.FCast

open Castaway.Json (natural)
open List

variable {lib : Libraries} {player player' : Player} {loaded : Loaded} {applied : Applied}
  {play : PlayMessage} {index wallMs : ℕ}

/-! ## What operations bring -/

/-- An entry of a playlist as a `play` of its own. -/
def MediaItem.asPlay (item : MediaItem) : PlayMessage :=
  ⟨item.container, item.url, item.content, item.time, item.volume, item.speed, item.headers,
    item.metadata⟩

namespace Operation

/-- The items that an operation puts into the queue, as senders are shown them.
-/
def items (lib : Libraries) : Operation → List PlayMessage
  | .load play =>
    if play.container = "application/json" then
      match play.content.map (PlaylistContent.fromJson lib) with
      | some (.ok playlist) => playlist.items.map MediaItem.asPlay
      | _ => []
    else [play]
  | .loadV4 (.single item) _ => [ResolvedItem.echoV4 item]
  | .loadV4 (.queue items _ _) _ => items.map fun item => ResolvedItem.echoV4 item.1
  | .queueInsertV4 item _ _ => [ResolvedItem.echoV4 item]
  | _ => []

def shownLoad : Operation → Option PlayMessage
  | .load play => some play
  | .loadV4 (.single item) _ => some (ResolvedItem.echoV4 item)
  | .loadV4 (.queue items startIndex _) _ =>
    items[(startIndex.getD 0).toNat]?.map fun item => ResolvedItem.echoV4 item.1
  | _ => none

def raw : Operation → Option RawPacket
  | .loadV4 _ raw | .queueInsertV4 _ _ raw => some raw
  | _ => none

end Operation

/-! ### Resolved items -/

theorem echo_resolve {what : String} {resolved : ResolvedItem}
    (h : ResolvedItem.resolve lib play what = .ok resolved) : resolved.echo = play := by
  unfold ResolvedItem.resolve at h
  split at h
  · cases h
  · split at h
    · cases h
    · split at h
      · cases h
      · split at h
        · cases h
        · cases h
          rfl

theorem map_echo_resolveAll {α : Type} {resolve : α → ℕ → Except Refusal ResolvedItem}
    {echo : α → PlayMessage} (hresolve : ∀ item i resolved, resolve item i = .ok resolved →
      resolved.echo = echo item) {items : List α} {resolved : List ResolvedItem}
    (h : resolveAll resolve items = .ok resolved) :
    resolved.map ResolvedItem.echo = items.map echo := by
  unfold resolveAll at h
  generalize 0 = start at h
  induction items generalizing start resolved with
  | nil => cases h; rfl
  | cons item items ih =>
    rw [zipIdx_cons, mapM_cons] at h
    obtain ⟨first, hfirst, h⟩ := bind_eq_ok.mp h
    obtain ⟨rest, hrest, h⟩ := bind_eq_ok.mp h
    cases h
    rw [map_cons, map_cons, ih _ hrest, hresolve _ _ _ hfirst]

theorem items_parseLoad {queue : List ResolvedItem}
    {isPlaylist : Bool} (h : Player.parseLoad lib play = .ok (queue, index, isPlaylist)) :
    queue.map ResolvedItem.echo = (Operation.load play).items lib := by
  unfold Player.parseLoad at h
  by_cases hplaylist : play.container = "application/json"
  · rw [if_pos hplaylist] at h
    rw [Operation.items, if_pos hplaylist]
    cases hcontent : play.content with
    | none => rw [hcontent] at h; cases h
    | some content =>
      rw [hcontent] at h
      dsimp only [Option.map_some] at h ⊢
      cases hjson : PlaylistContent.fromJson lib content with
      | error e => rw [hjson] at h; cases h
      | ok playlist =>
        rw [hjson] at h
        dsimp only at h ⊢
        split at h
        · cases h
        · split at h
          · cases h
          next resolved hresolved =>
            cases h
            have hechoes : queue.map ResolvedItem.echo =
                playlist.items.map MediaItem.asPlay :=
              map_echo_resolveAll (fun _ _ _ hitem => echo_resolve hitem) hresolved
            exact hechoes
  · rw [if_neg hplaylist] at h
    rw [Operation.items, if_neg hplaylist]
    split at h
    · cases h
    next resolved hresolved =>
      cases h
      rw [map_singleton, echo_resolve hresolved]

/-- What a version 4 load puts into the queue, what it shows, and what is
replayed of it. -/
theorem items_parseLoadV4 {source : LoadSource} {raw : RawPacket} {queue : List ResolvedItem}
    {isPlaylist autoplay v4Queue : Bool} {v4SingleRaw : Option RawPacket}
    (h : Player.parseLoadV4 lib source raw =
      .ok (queue, index, isPlaylist, autoplay, v4SingleRaw, v4Queue)) :
    queue.map ResolvedItem.echo = (Operation.loadV4 source raw).items lib ∧
      queue[index]?.map ResolvedItem.echo = (Operation.loadV4 source raw).shownLoad ∧
      ∀ kept, v4SingleRaw = some kept → kept = raw := by
  unfold Player.parseLoadV4 at h
  cases source with
  | single item =>
    dsimp only at h
    split at h
    · cases h
    next resolved hresolved =>
      cases h
      have hecho := echo_resolveV4 hresolved
      refine ⟨?_, ?_, fun kept hkept => (Option.some.inj hkept).symm⟩
      · rw [map_singleton, hecho]
        rfl
      · rw [getElem?_cons_zero, Option.map_some, hecho]
        rfl
  | queue items startIndex autoplay =>
    dsimp only at h
    split at h
    · cases h
    · split at h
      · cases h
      · split at h
        · cases h
        · split at h
          · cases h
          next resolved hresolved =>
            cases h
            have hechoes := echo_resolveAll hresolved
            refine ⟨hechoes, ?_, fun kept hkept => by cases hkept⟩
            rw [← getElem?_map, hechoes, getElem?_map]
            rfl

/-! ## Where what is announced comes from -/

/-- What is loaded was loaded before, up to items that the operation brought, or
is what it brought. -/
inductive Loaded.From (lib : Libraries) (op : Operation) (before : Option Loaded)
    (loaded : Loaded) : Prop
  | kept (old : Loaded) (hold : before = some old) (hplay : loaded.play = old.play)
      (hraw : loaded.v4SingleRaw = old.v4SingleRaw)
      (hqueue : ∀ item ∈ loaded.queue, item ∈ old.queue ∨ item.echo ∈ op.items lib)
  | brought (hplay : op.shownLoad = some loaded.play)
      (hraw : ∀ raw, loaded.v4SingleRaw = some raw → op.raw = some raw)
      (hqueue : ∀ item ∈ loaded.queue, item.echo ∈ op.items lib)

/-- What an update announces is loaded, or is what the operation is relayed as.
-/
def ReceiverUpdate.From (op : Operation) (loaded : Option Loaded) : ReceiverUpdate → Prop
  | .playChanged (some play) => loaded.map Loaded.play = some play
  | .mediaItem _ item => ∃ load, loaded = some load ∧ ∃ entry ∈ load.queue, entry.echo = item
  | .v4Load raw | .queueInsertRelay raw => op.raw = some raw
  | _ => True

/-- An operation keeps and announces only what was loaded and what it brings. -/
structure Brings (lib : Libraries) (player : Player) (op : Operation) (player' : Player)
    (updates : List ReceiverUpdate) : Prop where
  loaded : ∀ loaded, player'.loaded = some loaded → loaded.From lib op player.loaded
  updates : ∀ update ∈ updates, update.From op player'.loaded

theorem Brings.of_same {op : Operation} {updates : List ReceiverUpdate}
    (hloaded : player'.loaded = player.loaded)
    (hupdates : ∀ update ∈ updates, update.From op player'.loaded) :
    Brings lib player op player' updates where
  loaded := fun loaded h => .kept loaded (hloaded ▸ h) rfl rfl fun _ hitem => .inl hitem
  updates := hupdates

namespace Player

theorem from_started (op : Operation) (player : Player) (h : loaded.WellFormed) :
    ∀ update ∈ (player.started loaded (loaded.current h)).updates,
      update.From op (some loaded) := by
  intro update hupdate
  rcases mem_cons.mp hupdate with rfl | hupdate
  · exact ⟨loaded, rfl, loaded.current h, get_mem _ _, rfl⟩
  · cases mem_singleton.mp hupdate
    trivial

/-- Another item of the load is made current. -/
theorem brings_jumped (op : Operation) (hloaded : player.loaded = some loaded) {index : ℕ}
    (h : ({ loaded with index := index } : Loaded).WellFormed) {first last : List ReceiverUpdate}
    (hfirst : ∀ update ∈ first, update.From op (some { loaded with index }))
    (hlast : ∀ update ∈ last, update.From op (some { loaded with index })) :
    Brings lib player op (player.playing { loaded with index })
      (first ++ (player.jumped _ h).updates ++ last) where
  loaded := by
    rintro _ ⟨⟩
    exact .kept loaded hloaded rfl rfl fun _ hitem => .inl hitem
  updates := by
    intro update hupdate
    rcases mem_append.mp hupdate with hfront | hback
    · rcases mem_append.mp hfront with hmem | hmem
      · exact hfirst update hmem
      · exact from_started op _ h update hmem
    · exact hlast update hback

theorem brings_setPlaylistItem (h : player.WellFormed) (op : Operation) (index : ℕ)
    (happly : player.setPlaylistItem index = (player', .ok applied)) :
    Brings lib player op player' applied.updates := by
  rcases setPlaylistItem_cases h index with ⟨refusal, hrefused⟩ |
    ⟨loaded, hloaded, -, -, hwf, hset⟩
  · cases hrefused.symm.trans happly
  · cases hset.symm.trans happly
    have hbrings := @brings_jumped lib player loaded op hloaded index hwf [] []
      (fun _ hnil => absurd hnil not_mem_nil) (fun _ hnil => absurd hnil not_mem_nil)
    rwa [nil_append, append_nil] at hbrings

theorem brings_begin {op : Operation} (player₀ : Player) (h : loaded.WellFormed)
    {relayed : List ReceiverUpdate} (hplay : op.shownLoad = some loaded.play)
    (hraw : ∀ raw, loaded.v4SingleRaw = some raw → op.raw = some raw)
    (hqueue : loaded.queue.map ResolvedItem.echo = op.items lib)
    (hrelayed : ∀ update ∈ relayed, update.From op (some loaded))
    (hbegin : player₀.begin loaded relayed = (player', .ok applied)) :
    Brings lib player op player' applied.updates := by
  cases (player₀.begin_eq h relayed).symm.trans hbegin
  refine ⟨?_, ?_⟩
  · rintro _ ⟨⟩
    exact .brought hplay hraw fun item hitem => hqueue ▸ mem_map_of_mem hitem
  · intro update hupdate
    rcases mem_append.mp hupdate with hfront | hvolume
    · rcases mem_append.mp hfront with hmem | hmem
      · exact hrelayed update hmem
      · exact from_started op _ h update hmem
    · cases mem_singleton.mp hvolume
      trivial

/-- The end of an item tells which it was, and which one is next. -/
theorem brings_mediaEnded (h : player.WellFormed) (ending : Core.PlaybackEnd)
    (happly : player.mediaEnded ending = (player', .ok applied)) :
    Brings lib player (.mediaEnded ending) player' applied.updates := by
  rcases mediaEnded_cases h ending with ⟨-, hended⟩ |
    ⟨loaded, hwf, hloaded, ⟨hnext, hended⟩ | hended⟩
  · cases hended.symm.trans happly
    exact .of_same rfl (by simp [Applied.nothing])
  · cases hended.symm.trans happly
    have hcurrent : loaded.current hwf ∈ loaded.queue := get_mem _ _
    refine @brings_jumped lib player loaded _ hloaded _ hnext [_] _ ?_ ?_
    · intro update hupdate
      cases mem_singleton.mp hupdate
      exact ⟨_, rfl, _, hcurrent, rfl⟩
    · intro update hupdate
      unfold announcement at hupdate
      split at hupdate
      · cases mem_singleton.mp hupdate
        trivial
      · cases hupdate
  · cases hended.symm.trans happly
    have hcurrent : loaded.current hwf ∈ loaded.queue := get_mem _ _
    refine .of_same rfl fun update hupdate => ?_
    rcases mem_cons.mp hupdate with rfl | hupdate
    · exact ⟨loaded, hloaded, _, hcurrent, rfl⟩
    · cases ending with
      | finished =>
        cases mem_singleton.mp hupdate
        trivial
      | failed cause detail =>
        rcases mem_cons.mp hupdate with rfl | hupdate
        · trivial
        · cases mem_singleton.mp hupdate
          trivial

/-- **An operation announces only what was loaded and what it brings.** -/
theorem brings_apply (lib : Libraries) (h : player.WellFormed) (op : Operation)
    (happly : player.apply lib op = (player', .ok applied)) :
    Brings lib player op player' applied.updates := by
  cases op with
  | load play =>
    rcases player.load_cases lib play with ⟨refusal, hrefused⟩ |
      ⟨queue, index, isPlaylist, hparsed, hwf, hload⟩
    · cases hrefused.symm.trans happly
    · refine brings_begin _ hwf rfl (fun _ hraw => by cases hraw) (items_parseLoad hparsed) ?_
        (hload.symm.trans happly)
      simp [ReceiverUpdate.From]
  | loadV4 source raw =>
    rcases player.loadV4_cases lib source raw with ⟨refusal, hrefused⟩ |
      ⟨queue, index, isPlaylist, autoplay, v4SingleRaw, v4Queue, item, hparsed, hitem, hwf, hload⟩
    · cases hrefused.symm.trans happly
    · obtain ⟨hqueue, hshown, hkept⟩ := items_parseLoadV4 hparsed
      rw [hitem] at hshown
      refine brings_begin _ hwf hshown.symm (fun kept hraw => ?_) hqueue ?_
        (hload.symm.trans happly)
      · rw [hkept kept hraw]
        rfl
      · simp [ReceiverUpdate.From, Operation.raw]
  | queueInsertV4 item position raw =>
    rcases queueInsertV4_cases lib h item position raw with ⟨refusal, hrefused⟩ |
      ⟨resolved, loaded, index, hresolved, hloaded, -, -, -, hindex, hinsert⟩
    · cases hrefused.symm.trans happly
    · cases hinsert.symm.trans happly
      refine ⟨?_, ?_⟩
      · rintro _ ⟨⟩
        refine .kept loaded hloaded rfl rfl fun other hother => ?_
        rcases (mem_insertIdx hindex).mp hother with rfl | hmem
        · refine .inr ?_
          rw [echo_resolveV4 hresolved]
          exact mem_singleton_self _
        · exact .inl hmem
      · simp [editing, ReceiverUpdate.From, Operation.raw]
  | queueRemoveV4 position =>
    rcases queueRemoveV4_cases h position with ⟨refusal, hrefused⟩ |
      ⟨loaded, index, hloaded, -, -, -, -, hremove⟩
    · cases hrefused.symm.trans happly
    · cases hremove.symm.trans happly
      refine ⟨?_, ?_⟩
      · rintro _ ⟨⟩
        exact .kept loaded hloaded rfl rfl fun _ hitem => .inl (mem_of_mem_eraseIdx hitem)
      · simp [editing, ReceiverUpdate.From]
  | queueSelectV4 position =>
    rcases queueSelectV4_cases h position with ⟨refusal, hrefused⟩ |
      ⟨loaded, index, hloaded, -, -, hwf, hselect⟩
    · cases hrefused.symm.trans happly
    · cases hselect.symm.trans happly
      exact brings_jumped _ hloaded hwf (fun _ hnil => absurd hnil not_mem_nil)
        (by simp [ReceiverUpdate.From])
  | setPlaylistItem index => exact brings_setPlaylistItem h _ index happly
  | step forward =>
    rcases player.step_cases forward with ⟨refusal, hrefused⟩ | ⟨loaded, index, -, -, -, hstep⟩
    · cases hrefused.symm.trans happly
    · exact brings_setPlaylistItem h _ index (hstep.symm.trans happly)
  | pause =>
    cases happly
    unfold pause
    split <;> exact .of_same rfl (by simp [Applied.nothing, ReceiverUpdate.From])
  | resume =>
    cases happly
    unfold resume
    split <;> exact .of_same rfl (by simp [Applied.nothing, ReceiverUpdate.From])
  | stop =>
    cases happly
    unfold stop
    split
    · exact .of_same rfl (by simp [Applied.nothing])
    · exact ⟨fun _ hloaded => (by cases hloaded), by simp [ReceiverUpdate.From]⟩
  | seek target =>
    cases happly
    unfold seek
    split <;> exact .of_same rfl (by simp [Applied.nothing, ReceiverUpdate.From])
  | setVolume volume =>
    cases happly
    exact .of_same rfl (by simp [setVolume, ReceiverUpdate.From])
  | setSpeed speed shown =>
    simp only [apply, setSpeed] at happly
    split at happly
    · cases happly
      exact .of_same rfl (by simp [Applied.nothing])
    · cases happly
  | mediaEnded ending => exact brings_mediaEnded h ending happly

end Player

/-! ## Small loads -/

section

variable (codecs : Codecs) (receiver : ReceiverIdentity) (digits : ℕ)

/-- The load is small enough for a `PlayUpdate` whose time has so many digits,
and for the `Initial` of a sender that joins later. -/
structure PlayMessage.SmallLoad (play : PlayMessage) : Prop where
  update : (play.text codecs).length + 31 + digits < maxPacket
  initial : (play.text codecs).length + 12 +
    ((JsonFrame.initial receiver none).body codecs).length < maxPacket

def PlayMessage.SmallItem (item : PlayMessage) : Prop :=
  (item.text codecs).length + 46 + digits < maxPacket

def RawPacket.SmallRelay (raw : RawPacket) : Prop :=
  (codecs.flatbuf (strippedRelayFrame raw)).length < maxPacket

/-- What the operation brings is small enough. -/
structure Operation.Small (lib : Libraries) (op : Operation) : Prop where
  load : ∀ play, op.shownLoad = some play → play.SmallLoad codecs receiver digits
  items : ∀ item ∈ op.items lib, item.SmallItem codecs digits
  raw : ∀ raw, op.raw = some raw → raw.SmallRelay codecs

structure Loaded.Small (loaded : Loaded) : Prop where
  load : loaded.play.SmallLoad codecs receiver digits
  items : ∀ item ∈ loaded.queue, item.echo.SmallItem codecs digits
  raw : ∀ raw, loaded.v4SingleRaw = some raw → raw.SmallRelay codecs

def Player.Fits (player : Player) : Prop :=
  ∀ loaded, player.loaded = some loaded → loaded.Small codecs receiver digits

end

variable {codecs : Codecs} {receiver : ReceiverIdentity} {digits : ℕ} {op : Operation}

theorem Brings.fits {updates : List ReceiverUpdate} (h : Brings lib player op player' updates)
    (hfits : player.Fits codecs receiver digits) (hop : op.Small codecs receiver digits lib) :
    player'.Fits codecs receiver digits := by
  intro loaded hloaded
  cases h.loaded loaded hloaded with
  | kept old hold hplay hraw hqueue =>
    have hsmall := hfits old hold
    refine ⟨hplay ▸ hsmall.load, fun item hitem => ?_, hraw ▸ hsmall.raw⟩
    rcases hqueue item hitem with hmem | hbrought
    · exact hsmall.items item hmem
    · exact hop.items _ hbrought
  | brought hplay hraw hqueue =>
    exact ⟨hop.load _ hplay, fun item hitem => hop.items _ (hqueue item hitem),
      fun raw hkept => hop.raw raw (hraw raw hkept)⟩

/-- A well-formed player keeps what fits, whether or not an operation is
refused. -/
theorem Player.Fits.apply (hfits : player.Fits codecs receiver digits) (hwf : player.WellFormed)
    (hop : ∀ applied, (player.apply lib op).2 = .ok applied →
      op.Small codecs receiver digits lib) :
    (player.apply lib op).1.Fits codecs receiver digits := by
  rcases player.apply_cases lib hwf op with ⟨refusal, hrefused⟩ | ⟨player', applied, happly, -⟩
  · rw [hrefused]
    exact hfits
  · have hbrings := player.brings_apply lib hwf op happly
    rw [happly] at hop ⊢
    exact hbrings.fits hfits (hop applied rfl)

/-! ## Announcements -/

def Frame.announces : Frame → Bool
  | .json (.initial _ _) => true
  | .json (.playUpdate _ (some _)) => true
  | .json (.mediaItemEvent _ _ _) => true
  | .v4 (.load _) => true
  | .v4 (.queueInsert _ _) => true
  | _ => false

def ReceiverUpdate.announces : ReceiverUpdate → Bool
  | .playChanged (some _) | .mediaItem _ _ | .v4Load _ | .queueInsertRelay _ => true
  | _ => false

theorem announces_of_updateFrame {session : PeerSession} {wallMs : ℕ} {update : ReceiverUpdate}
    {frame : Frame} (h : session.updateFrame wallMs update = some frame)
    (hannounces : frame.announces) : update.announces := by
  cases session with
  | json session =>
    obtain ⟨reply, hreply, rfl⟩ := Option.map_eq_some_iff.mp h
    unfold Session.frameUpdate at hreply
    split at hreply
    · cases hreply
    next version _ =>
      cases update with
      | playChanged play =>
        cases version <;> cases hreply
        cases play with
        | none => cases hannounces
        | some play => rfl
      | mediaItem kind item => rfl
      | _ => cases version <;> cases hreply <;> cases hannounces
  | v4 session =>
    obtain ⟨reply, hreply, rfl⟩ := Option.map_eq_some_iff.mp h
    cases update with
    | v4Load raw | queueInsertRelay raw => rfl
    | playChanged play =>
      cases play <;> cases hreply
      cases hannounces
    | _ => cases hreply <;> cases hannounces

theorem PlayMessage.SmallLoad.encodes_playUpdate (h : play.SmallLoad codecs receiver digits)
    (htime : (natural wallMs).length ≤ digits) :
    (Frame.json (.playUpdate wallMs (some play))).encodes codecs := by
  have hupdate := h.update
  rw [Frame.encodes_iff, Frame.body, length_playUpdate]
  omega

theorem PlayMessage.SmallLoad.encodes_initial (h : play.SmallLoad codecs receiver digits) :
    (Frame.json (.initial receiver (some play))).encodes codecs := by
  have hinitial := h.initial
  rw [Frame.encodes_iff, Frame.body, length_initial]
  omega

theorem PlayMessage.SmallItem.encodes {item : PlayMessage} (h : item.SmallItem codecs digits)
    (htime : (natural wallMs).length ≤ digits) (kind : MediaItemEventKind) :
    (Frame.json (.mediaItemEvent wallMs kind item)).encodes codecs := by
  rw [Frame.encodes_iff, Frame.body, length_mediaItemEvent]
  rw [PlayMessage.SmallItem] at h
  omega

theorem RawPacket.SmallRelay.encodes {raw : RawPacket} (h : raw.SmallRelay codecs) :
    (Frame.v4 (strippedRelayFrame raw)).encodes codecs := by
  rw [Frame.encodes_iff]
  cases raw <;> exact h

/-- **Every announcement of an update fits**, in the dialect of any session. -/
theorem ReceiverUpdate.From.encodes {update : ReceiverUpdate}
    (h : update.From op player.loaded) (hfits : player.Fits codecs receiver digits)
    (hop : op.Small codecs receiver digits lib) (htime : (natural wallMs).length ≤ digits)
    {session : PeerSession} {frame : Frame}
    (hframe : session.updateFrame wallMs update = some frame) (hannounces : frame.announces) :
    frame.encodes codecs := by
  have hupdate := announces_of_updateFrame hframe hannounces
  cases session with
  | json session =>
    obtain ⟨reply, hreply, rfl⟩ := Option.map_eq_some_iff.mp hframe
    unfold Session.frameUpdate at hreply
    split at hreply
    · cases hreply
    next version _ =>
      cases update with
      | playChanged play =>
        cases version <;> cases hreply
        cases play with
        | none => cases hannounces
        | some play =>
          obtain ⟨loaded, hloaded, rfl⟩ := Option.map_eq_some_iff.mp h
          exact (hfits loaded hloaded).load.encodes_playUpdate htime
      | mediaItem kind item =>
        dsimp only at hreply
        split at hreply
        · cases hreply
          obtain ⟨loaded, hloaded, entry, hentry, rfl⟩ := h
          exact ((hfits loaded hloaded).items entry hentry).encodes htime kind
        · cases hreply
      | v4Load raw | queueInsertRelay raw => cases hreply
      | _ => cases hupdate
  | v4 session =>
    cases update with
    | v4Load raw | queueInsertRelay raw =>
      cases hframe
      exact (hop.raw raw h).encodes
    | playChanged play => cases play <;> cases hframe; cases hannounces
    | mediaItem kind item => cases hframe
    | _ => cases hupdate

/-! ## A session's own answers -/

namespace Session

theorem since_ok {version least : SessionVersion} {returns : Returns} {result}
    (h : since version least returns = .ok result) : returns = .ok result := by
  unfold since at h
  split at h
  · exact h
  · cases h

variable {reaction : Reaction JsonFrame SenderCommand}

/-- A running session answers a `Ping`, and nothing else. -/
theorem dispatch_replies {session after : Session} {version : SessionVersion}
    {inbound : JsonInbound}
    (h : session.dispatch version inbound = .ok (after, reaction)) :
    ∀ frame ∈ reaction.replies, frame = .pong := by
  have hnone : ∀ frame ∈ ([] : List JsonFrame), frame = .pong :=
    fun _ hnil => absurd hnil not_mem_nil
  cases inbound with
  | ping =>
    cases since_ok h
    exact fun frame hframe => mem_singleton.mp hframe
  | pong => cases since_ok h; exact hnone
  | play body => cases body <;> cases h; exact hnone
  | setVolume volume => cases volume <;> cases h; exact hnone
  | seek time =>
    cases time with
    | none => cases h
    | some time =>
      cases htarget : time.toDuration? with
      | none =>
        simp only [dispatch, parseBody, ok_bind, htarget] at h
        cases h
      | some target =>
        simp only [dispatch, parseBody, ok_bind, htarget] at h
        cases h
        exact hnone
  | setSpeed speed => cases speed <;> cases since_ok h; exact hnone
  | initial info => cases info <;> cases since_ok h; exact hnone
  | setPlaylistItem itemIndex => cases itemIndex <;> cases since_ok h; exact hnone
  | subscribeEvent event | unsubscribeEvent event => cases event <;> cases since_ok h; exact hnone
  | _ => cases h <;> exact hnone
/-- Of a session's own answers only the `Initial` announces anything. -/
theorem onFrame_announces {session after : Session} {now : ℕ} {ctx : SessionContext}
    {inbound : JsonInbound} {frame : JsonFrame}
    (h : session.onFrame now ctx inbound = .ok (after, reaction))
    (hreply : frame ∈ reaction.replies)
    (hannounces : (Frame.json frame).announces) : frame = .initial ctx.receiver ctx.playData := by
  have hdispatch {session : Session} {version : SessionVersion}
      (h : session.dispatch version inbound = .ok (after, reaction)) :
      frame = .initial ctx.receiver ctx.playData := by
    cases dispatch_replies h frame hreply
    cases hannounces
  unfold onFrame at h
  dsimp only at h
  cases hversion : session.version with
  | some version =>
    rw [hversion] at h
    exact hdispatch h
  | none =>
    rw [hversion] at h
    dsimp only at h
    split at h
    next version =>
      rcases version with _ | _ | _ | _ | version
      · cases h
      · cases h
      · cases h
        cases mem_singleton.mp hreply
        cases hannounces
      · cases h
        cases mem_singleton.mp hreply
        cases hannounces
      · cases h
        exact mem_singleton.mp hreply
    · split at h
      · exact hdispatch h
      · cases h

end Session

end Castaway.FCast
