import Castaway.FCast.Views
import Castaway.Lib.Runs

/-!
# The queue over a whole run

What one connection hears in a step is the effect of the frames it is sent on a
copy of the queue, as long as none of them is dropped.  `Hears` says what that
effect is; most steps send a connection nothing that changes a copy.

**The headline result** `views_follow`: from a version 4 `Load` of a queue on,
the copies of the senders that were there are the queue of the player, as long
as nobody moves the pointer and version 4 senders are not told.
`selection_untold` is a run in which a version 3 sender does.
-/

namespace Castaway.FCast

open List

/-! ## Commands that were read -/

/-- What is loaded or inserted is what the message says. -/
def V4Command.Read : V4Command → Prop
  | .load source raw => ∃ flat, source = .fromFlat flat ∧ raw = .load flat
  | .queueInsert item _ position raw => ∃ flat : FlatQueueItem,
      item = .fromFlat flat.mediaItem ∧ raw = .queueInsert flat position
  | _ => True

theorem V4Command.Read.faithful {shared : Shared} {env : Env} {command : V4Command}
    (h : command.Read) {op : Operation} (hop : Inner.operationV4 shared env command = some op) :
    op.Faithful shared.localHost := by
  cases command with
  | load source raw | queueInsert item duration position raw =>
    obtain ⟨flat, rfl, rfl⟩ := h
    cases hop
    exact ⟨flat, rfl, rfl⟩
  | _ => cases hop <;> trivial

/-- The same of a message that came in. -/
def V4Inbound.Read : V4Inbound → Prop
  | .load source raw => ∃ flat, source = .fromFlat flat ∧ raw = .load flat
  | .queueInsert item _ position raw => ∃ flat : FlatQueueItem,
      item = .fromFlat flat.mediaItem ∧ raw = .queueInsert flat position
  | _ => True

theorem read_parseFlatbuf {packet : Packet} {message : V4Inbound}
    (h : parseFlatbuf packet = .ok message) : message.Read := by
  cases packet with
  | load source =>
    rcases source with _ | flat
    · cases h
    · cases h
      exact ⟨flat, rfl, rfl⟩
  | queueInsert item position =>
    rcases position with _ | position
    · cases h
    · cases h
      exact ⟨item, rfl, rfl⟩
  | progressChanged position | queueRemove position | queueItemSelected position =>
    rcases position with _ | position
    · cases h
    · cases h; trivial
  | setProgressUpdateInterval interval =>
    rcases interval with _ | interval
    · cases h
    · cases h; trivial
  | addSubtitleSource url =>
    rw [parseFlatbuf] at h
    split at h
    · cases h
    · cases h; trivial
  | _ => cases h <;> trivial

theorem read_onMessage {session : SessionV4} {packetNum : UInt32} {message : V4Inbound}
    (h : message.Read) {command : V4Command}
    (hcommand : (session.onMessage packetNum message).2.command = some command) : command.Read := by
  cases message with
  | load source raw | queueInsert item duration position raw =>
    cases hcommand
    exact h
  | playbackStateChanged state =>
    cases state <;> cases hcommand
    all_goals trivial
  | speedChanged speed =>
    rw [SessionV4.onMessage] at hcommand
    split at hcommand <;> cases hcommand <;> trivial
  | mirroringSessionDescription sessionId sdp =>
    rw [SessionV4.onMessage] at hcommand
    split at hcommand <;> cases hcommand
    trivial
  | changeTrack id => rcases id with _ | id <;> cases hcommand
  | _ => cases hcommand <;> trivial

/-! ## Frames that leave a copy alone -/

/-- What a frame does to a copy; JSON frames are for others. -/
def hearFrame : Frame → Option View → Option View
  | .v4 frame, view => hear frame view
  | .json _, view => view

def hearAll (frames : List Frame) (view : Option View) : Option View :=
  frames.foldl (fun view frame => hearFrame frame view) view

theorem hearAll_append (first second : List Frame) (view : Option View) :
    hearAll (first ++ second) view = hearAll second (hearAll first view) :=
  foldl_append

/-- A frame that leaves every copy alone. -/
def Idle (frame : Frame) : Prop := ∀ view, hearFrame frame view = view

theorem hearAll_idle {frames : List Frame} (h : ∀ frame ∈ frames, Idle frame)
    (view : Option View) : hearAll frames view = view := by
  induction frames with
  | nil => rfl
  | cons frame frames ih =>
    rw [hearAll, foldl_cons, h frame mem_cons_self]
    exact ih fun other hother => h other (mem_cons_of_mem _ hother)

/-- What a session answers by itself leaves copies alone. -/
theorem idle_onMessage (session : SessionV4) (packetNum : UInt32) (message : V4Inbound) :
    ∀ frame ∈ (session.onMessage packetNum message).2.replies, Idle (.v4 frame) := by
  have hreply : ∀ kind, ∀ frame ∈ [V4Frame.error kind (some packetNum)], Idle (.v4 frame) := by
    intro kind frame hframe
    cases mem_singleton.mp hframe
    exact fun _ => rfl
  have hnone : ∀ frame ∈ ([] : List V4Frame), Idle (.v4 frame) :=
    fun _ h => absurd h not_mem_nil
  cases message with
  | playbackStateChanged state => cases state <;> first | exact hnone | exact hreply _
  | volumeChanged volume =>
    rw [SessionV4.onMessage]
    dsimp only
    split
    · exact hnone
    · exact hreply _
  | speedChanged speed | mirroringSessionDescription sessionId sdp =>
    rw [SessionV4.onMessage]
    split
    · exact hnone
    · exact hreply _
  | changeTrack id => rcases id with _ | id <;> first | exact hnone | exact hreply _
  | addSubtitleSource => exact hreply _
  | _ => exact hnone

/-- A frame of a version 4 sender, once its session took it: the answers leave
copies alone, and the command is what was read. -/
theorem onFrame_ok {session session' : SessionV4} {now : ℕ} {frame : RawFrame}
    {reaction : Reaction V4Frame V4Command}
    (h : session.onFrame now frame = .ok (session', reaction)) :
    (∀ reply ∈ reaction.replies, Idle (.v4 reply)) ∧
      ∀ command, reaction.command = some command → command.Read := by
  have hreply : ∀ reply : V4Frame, Idle (.v4 reply) →
      (∀ other ∈ [reply], Idle (.v4 other)) ∧
        ∀ command, (Reaction.reply reply : Reaction V4Frame V4Command).command = some command →
          command.Read := by
    intro reply hidle
    refine ⟨fun other hother => ?_, fun command hcommand => by cases hcommand⟩
    cases mem_singleton.mp hother
    exact hidle
  unfold SessionV4.onFrame at h
  cases frame with
  | flatbuf body =>
    rcases body with _ | packet
    · cases h
    · dsimp only at h
      split at h
      next message hparse =>
        have hanswer := Except.ok.inj h
        obtain rfl : _ = reaction := congrArg Prod.snd hanswer
        exact ⟨idle_onMessage _ _ _, fun command => read_onMessage (read_parseFlatbuf hparse)⟩
      · cases h
        exact hreply _ fun _ => rfl
  | resource part =>
    rcases part with _ | part
    · cases h
    · cases h
      refine ⟨fun _ h => absurd h not_mem_nil, fun command hcommand => ?_⟩
      cases hcommand
      trivial
  | emptyFlatbuf => cases h
  | ping =>
    cases h
    exact hreply _ fun _ => rfl
  | pong =>
    cases h
    exact ⟨fun _ h => absurd h not_mem_nil, fun _ h => by cases h⟩
  | other =>
    cases h
    exact hreply _ fun _ => rfl

/-! ## What a connection hears -/

/-- One connection before and after: what it is sent makes `turn` of a copy, and
a command it carries it has just read, or carried before. -/
structure PeerHears (turn : Option View → Option View) (peer peer' : Peer) : Prop where
  v4 : ∀ session', peer'.session = .v4 session' → ∃ session, peer.session = .v4 session
  sent : ∀ session', peer'.session = .v4 session' → peer'.dropped = false →
    peer.dropped = false ∧ ∃ frames, peer'.sent = peer.sent ++ frames ∧
      ∀ view, hearAll frames view = turn view
  carries : ∀ command, peer'.actor = .carrying (.v4 command) →
    command.Read ∨ peer.actor = .carrying (.v4 command)

theorem PeerHears.refl (peer : Peer) : PeerHears id peer peer where
  v4 := fun session h => ⟨session, h⟩
  sent := fun _ _ hdropped => ⟨hdropped, [], (append_nil _).symm, fun _ => rfl⟩
  carries := fun _ h => .inr h

variable {peer peer' peer'' : Peer}

theorem PeerHears.trans {first second : Option View → Option View}
    (h₁ : PeerHears first peer peer') (h₂ : PeerHears second peer' peer'') :
    PeerHears (second ∘ first) peer peer'' where
  v4 := fun session h => by
    obtain ⟨session', hsession'⟩ := h₂.v4 session h
    exact h₁.v4 session' hsession'
  sent := fun session h hdropped => by
    obtain ⟨session', hsession'⟩ := h₂.v4 session h
    obtain ⟨hdropped', frames₂, hsent₂, hturn₂⟩ := h₂.sent session h hdropped
    obtain ⟨hdropped'', frames₁, hsent₁, hturn₁⟩ := h₁.sent session' hsession' hdropped'
    refine ⟨hdropped'', frames₁ ++ frames₂, ?_, fun view => ?_⟩
    · rw [hsent₂, hsent₁, append_assoc]
    · rw [hearAll_append, hturn₁, hturn₂]
      rfl
  carries := fun command h => by
    rcases h₂.carries command h with hread | hcarried
    · exact .inl hread
    · exact h₁.carries command hcarried

/-- A change that sends nothing, and then one that does. -/
theorem PeerHears.andThen {turn : Option View → Option View}
    (h₁ : PeerHears (fun view => view) peer peer') (h₂ : PeerHears turn peer' peer'') :
    PeerHears turn peer peer'' := h₁.trans h₂

/-- A peer hears the frame it is sent. -/
theorem peerHears_sendFrame (shared : Shared) (peer : Peer) (frame : Frame) :
    PeerHears (hearFrame frame) peer (peer.sendFrame shared frame) := by
  unfold Peer.sendFrame
  split
  · exact ⟨fun session h => ⟨session, h⟩, fun _ _ hdropped => ⟨hdropped, [frame], rfl, fun _ => rfl⟩,
      fun _ h => .inr h⟩
  · exact ⟨fun session h => ⟨session, h⟩, fun _ _ hdropped => (by cases hdropped),
      fun _ h => .inr h⟩

theorem peerHears_sendFrames (shared : Shared) (peer : Peer) (frames : List Frame) :
    PeerHears (hearAll frames) peer (peer.sendFrames shared frames) := by
  induction frames generalizing peer with
  | nil => exact .refl peer
  | cons frame frames ih =>
    exact (peerHears_sendFrame shared peer frame).trans (ih (peer.sendFrame shared frame))

/-- What is sent is only sent to sessions of version 4. -/
theorem PeerHears.congr {turn turn' : Option View → Option View} (h : PeerHears turn peer peer')
    (hturn : ∀ session, peer.session = .v4 session → ∀ view, turn view = turn' view) :
    PeerHears turn' peer peer' where
  v4 := h.v4
  sent := fun session' hsession' hdropped => by
    obtain ⟨session, hsession⟩ := h.v4 session' hsession'
    obtain ⟨hdropped', frames, hsent, hhears⟩ := h.sent session' hsession' hdropped
    exact ⟨hdropped', frames, hsent, fun view => (hhears view).trans (hturn session hsession view)⟩
  carries := h.carries

theorem peerHears_idle (shared : Shared) (peer : Peer) {frames : List Frame}
    (h : ∀ frame ∈ frames, Idle frame) : PeerHears id peer (peer.sendFrames shared frames) :=
  (peerHears_sendFrames shared peer frames).congr fun _ _ => hearAll_idle h

/-- A change of the session and the actor that sends nothing. -/
theorem peerHears_quiet
    (hv4 : ∀ session', peer'.session = .v4 session' → ∃ session, peer.session = .v4 session)
    (hsent : peer'.sent = peer.sent) (hdropped : peer'.dropped = peer.dropped)
    (hcarries : ∀ command, peer'.actor = .carrying (.v4 command) →
      command.Read ∨ peer.actor = .carrying (.v4 command)) : PeerHears id peer peer' where
  v4 := hv4
  sent := fun _ _ h => ⟨hdropped ▸ h, [], by rw [hsent, append_nil], fun _ => rfl⟩
  carries := hcarries

/-- Of some updates a version 4 session hears what `heard` says. -/
theorem hearAll_framesFor (wallMs : ℕ) (updates : List ReceiverUpdate) (own : Bool)
    (session : SessionV4) (view : Option View) :
    hearAll (Inner.framesFor wallMs updates own (.v4 session)) view = heard own updates view := by
  unfold Inner.framesFor heard
  generalize updates.filter (fun update => !(own && Inner.isEcho update)) = updates
  induction updates generalizing view with
  | nil => rfl
  | cons update updates ih =>
    rw [filterMap_cons, foldl_cons, ← ih]
    have hframe : (PeerSession.v4 session).updateFrame wallMs update =
        (v4UpdateFrame update).map .v4 := rfl
    rw [hframe, hearUpdate]
    cases v4UpdateFrame update <;> rfl

namespace Inner

variable {shared : Shared} {s t : Inner} {d : ℕ} {turn : Option View → Option View}

/-- What connection `d` hears in a step, if it is one afterwards. -/
def Hears (d : ℕ) (turn : Option View → Option View) (s t : Inner) : Prop :=
  ∀ peer', t.peers d = some peer' → ∃ peer, s.peers d = some peer ∧ PeerHears turn peer peer'

theorem Hears.trans {first second : Option View → Option View} {u : Inner}
    (h₁ : Hears d first s t) (h₂ : Hears d second t u) : Hears d (second ∘ first) s u := by
  intro peer'' hpeer''
  obtain ⟨peer', hpeer', hhears₂⟩ := h₂ peer'' hpeer''
  obtain ⟨peer, hpeer, hhears₁⟩ := h₁ peer' hpeer'
  exact ⟨peer, hpeer, hhears₁.trans hhears₂⟩

theorem Hears.andThen {u : Inner} (h₁ : Hears d (fun view => view) s t) (h₂ : Hears d turn t u) :
    Hears d turn s u := h₁.trans h₂

theorem hears_of_same (h : t.peers d = s.peers d) : Hears d id s t :=
  fun peer' hpeer' => ⟨peer', h ▸ hpeer', .refl peer'⟩

theorem hears_of_map {f : Peer → Peer} (hpeers : t.peers d = (s.peers d).map f)
    (hf : ∀ peer, s.peers d = some peer → PeerHears turn peer (f peer)) : Hears d turn s t := by
  intro peer' hpeer'
  obtain ⟨peer, hpeer, rfl⟩ := Option.map_eq_some_iff.mp (hpeers.symm.trans hpeer')
  exact ⟨peer, hpeer, hf peer hpeer⟩

theorem hears_onPeer (id : ℕ) {f : Peer → Peer}
    (hf : ∀ peer, PeerHears (fun view => view) peer (f peer)) :
    Hears d (fun view => view) s (s.onPeer id f) := by
  by_cases hid : d = id
  · subst hid
    exact hears_of_map (onPeer_self ..) fun peer _ => hf peer
  · exact hears_of_same (onPeer_of_ne _ hid _)

theorem hears_sendTo (id : ℕ) {frame : Frame} (h : Idle frame) :
    Hears d (fun view => view) s (s.sendTo shared id frame) :=
  hears_onPeer id fun peer => (peerHears_sendFrame shared peer frame).congr fun _ _ => h

theorem idle_refusalFrame (wallMs : ℕ) (refusal : Refusal) (session : PeerSession) :
    ∀ frame ∈ (refusalFrame wallMs refusal session).toList, Idle frame := by
  intro frame hframe
  have hsome := Option.mem_toList.mp hframe
  cases session with
  | json session =>
    obtain ⟨reply, -, rfl⟩ := Option.map_eq_some_iff.mp hsome
    exact fun _ => rfl
  | v4 session =>
    cases hsome
    exact fun _ => rfl

theorem hears_refuse (wallMs : ℕ) (id : Option ℕ) (refusal : Refusal) :
    Hears d (fun view => view) s (s.refuse shared wallMs id refusal) := by
  cases id with
  | none => exact hears_of_same rfl
  | some id =>
    exact hears_onPeer id fun peer => peerHears_idle shared peer (idle_refusalFrame _ _ _)

/-- A broadcast is heard as its updates are. -/
theorem hears_broadcast (wallMs : ℕ) (updates : List ReceiverUpdate) (initiator : Option ℕ) :
    Hears d (heard (some d == initiator) updates) s
      (s.broadcast shared wallMs updates initiator) :=
  hears_of_map rfl fun peer _ =>
    (peerHears_sendFrames shared peer _).congr fun session hsession view => by
      rw [hsession, hearAll_framesFor]

def heardOf (own : Bool) (result : Player × Except Fault Applied) (view : Option View) :
    Option View :=
  match result.2 with
  | .ok applied => heard own applied.updates view
  | .error _ => view

/-- A settled operation is heard as its relay and its updates. -/
theorem hears_settle (wallMs : ℕ) (id : Option ℕ) (result : Player × Except Fault Applied) :
    Hears d (heardOf (some d == id) result) s (s.settle shared wallMs id result).1 := by
  obtain ⟨player, refusal | applied⟩ := result
  · cases refusal with
    | refused refusal => exact @hears_refuse shared { s with player } d wallMs id refusal
    | panic => exact hears_of_same rfl
  · exact @hears_broadcast shared { s with player } d wallMs applied.updates id

/-! ## Steps -/

/-- What `d` does to its own copy in a step: what it asked for itself, once that
is accepted. -/
def ownRelay (shared : Shared) (inner : Inner) (d : ℕ) : Action → Option V4Frame
  | .applyCommand env id =>
    if id = d then
      ((inner.carried id).bind (operationV4 shared env)).bind fun op =>
        if (inner.player.apply shared.lib op).2.isOk then op.relay else none
    else none
  | _ => none

/-- The selection that a step makes in the name of a version 3 sender or the
panel. -/
def selection (inner : Inner) : Action → Option Operation
  | .applyCommand _ id => (inner.peers id).bind fun peer =>
    match peer.actor with
    | .carrying (.json (.setPlaylistItem index)) => some (.setPlaylistItem index)
    | _ => none
  | .issue _ .next => some (.step true)
  | .issue _ .previous => some (.step false)
  | _ => none

/-- The step moves the pointer of a version 4 queue, and version 4 senders are
not told. -/
def MovesUntold (inner : Inner) (action : Action) : Prop :=
  ∃ op, inner.selection action = some op ∧ inner.player.MovesUntold op

/-- Every version 4 command that a peer carries is what it was read from. -/
def Orderly (inner : Inner) : Prop :=
  ∀ id peer command, inner.peers id = some peer → peer.actor = .carrying (.v4 command) →
    command.Read

/-- What a step does to connection `d` and to a copy that is the queue, `own`
having been done to it first. -/
def Follows (shared : Shared) (d : ℕ) (own : Option V4Frame) (told : Prop) (s t : Inner) : Prop :=
  ∃ turn, Hears d turn s t ∧ (told → ∀ view, Sees shared.localHost s.player view →
    Sees shared.localHost t.player (turn (own.elim view fun frame => hear frame view)))

variable {told : Prop} {peer peer' : Peer}

theorem Follows.quiet (h : Hears d (fun view => view) s t) (hplayer : t.player = s.player) :
    Follows shared d none told s t :=
  ⟨_, h, fun _ _ hview => by rw [hplayer]; exact hview⟩

/-- What a step does before the operation it applies, heard by nobody. -/
theorem Follows.after {s' : Inner} {own : Option V4Frame} (h : Follows shared d own told s' t)
    (hfirst : Hears d (fun view => view) s s') (hplayer : s'.player = s.player) :
    Follows shared d own told s t := by
  obtain ⟨turn, hhears, hsees⟩ := h
  exact ⟨turn, hfirst.trans hhears, fun htold view hview =>
    hsees htold view (by rw [hplayer]; exact hview)⟩

/-- **An operation** that is applied to the player, and with more to tell that
nobody hears. -/
theorem follows_settle (hwf : s.player.WellFormed) {op : Operation}
    (hfaithful : op.Faithful shared.localHost) {last : List ReceiverUpdate}
    (hlast : ∀ update ∈ last, Unheard update) (wallMs : ℕ) (id : Option ℕ) :
    Follows shared d
      (if some d = id ∧ (s.player.apply shared.lib op).2.isOk then op.relay else none)
      (¬ s.player.MovesUntold op) s
      (s.settle shared wallMs id (Player.extended [] last (s.player.apply shared.lib op))).1 := by
  refine ⟨_, hears_settle wallMs id _, fun htold view hview => ?_⟩
  rw [player_settle]
  rcases Player.apply_cases shared.lib hwf op with ⟨refusal, hrefused⟩ |
    ⟨player', applied, hok, -⟩
  · rw [hrefused, if_neg (fun h => by cases h.2)]
    exact hview
  · have hsees := sees_apply hwf hok htold hfaithful (some d == id) hview
    rw [hok]
    have hmore : heard (some d == id) ([] ++ applied.updates ++ last) =
        heard (some d == id) applied.updates := by
      funext view
      rw [nil_append, heard_append, heard_unheard hlast]
    have hown : (if some d = id ∧ (Except.ok applied : Except Fault Applied).isOk then op.relay
        else none).elim view (fun frame => hear frame view) = hearOwn (some d == id) op view := by
      by_cases hid : some d = id
      · rw [if_pos ⟨hid, rfl⟩, hearOwn, if_pos (beq_iff_eq.mpr hid)]
      · rw [if_neg fun h => hid h.1, hearOwn, if_neg (fun h => hid (beq_iff_eq.mp h))]
        rfl
    rw [heardOf, hown]
    dsimp only [Player.extended, Except.map]
    rw [hmore]
    exact hsees

theorem Follows.mono {own : Option V4Frame} {told' : Prop} (h : Follows shared d own told s t)
    (htold : told' → told) : Follows shared d own told' s t := by
  obtain ⟨turn, hhears, hsees⟩ := h
  exact ⟨turn, hhears, fun htold' => hsees (htold htold')⟩

/-- An operation that nobody who keeps a copy asked for. -/
theorem follows_operation (hwf : s.player.WellFormed) {op : Operation}
    (hfaithful : op.Faithful shared.localHost) (hrelay : op.relay = none) (wallMs : ℕ)
    (id : Option ℕ) : Follows shared d none (¬ s.player.MovesUntold op) s
      (s.settle shared wallMs id (s.player.apply shared.lib op)).1 := by
  have h := @follows_settle shared s d hwf op hfaithful []
    (fun _ h => absurd h not_mem_nil) wallMs id
  rw [Player.extended_nil, hrelay, ite_self] at h
  exact h

/-! ### Commands -/

/-- No version 4 command moves the pointer untold. -/
theorem not_movesUntold_operationV4 {env : Env} {command : V4Command} {op : Operation}
    (hop : operationV4 shared env command = some op) (player : Player) :
    ¬ player.MovesUntold op := by
  cases command <;> cases hop <;> exact id

/-- A version 4 operation is followed. -/
theorem follows_applyOperation (hwf : s.player.WellFormed) (env : Env) (id : ℕ)
    {command : V4Command} (hread : command.Read) {op : Operation}
    (hop : operationV4 shared env command = some op) :
    Follows shared d
      (if id = d then if (s.player.apply shared.lib op).2.isOk then op.relay else none else none)
      told s (s.applyOperation shared env id command op).1 := by
  obtain ⟨last, hsubset, hspeed⟩ := withSpeed_eq command
  have hlast : ∀ update ∈ last, Unheard update := by
    intro update hupdate
    cases mem_singleton.mp (hsubset hupdate)
    exact ⟨rfl, fun _ => rfl⟩
  have hown : (if some d = some id ∧ (s.player.apply shared.lib op).2.isOk then op.relay
      else none) =
      if id = d then if (s.player.apply shared.lib op).2.isOk then op.relay else none else none := by
    by_cases hid : id = d
    · simp only [hid, true_and, if_true]
    · simp only [if_neg hid, Option.some_inj, Ne.symm hid, false_and, if_false]
  have hnever := fun (_ : told) => not_movesUntold_operationV4 hop s.player
  unfold applyOperation
  rw [← hown]
  dsimp only
  rw [hspeed]
  by_cases herror : seekError env command = true
  · rw [if_pos herror]
    have hsettle := @follows_settle shared (s.sendTo shared id (.v4 (.error .seekOutOfRange none)))
      d hwf op (hread.faithful hop) last hlast env.wallMs (some id)
    exact (hsettle.mono hnever).after (hears_sendTo id fun _ => rfl) rfl
  · rw [if_neg herror]
    exact (follows_settle hwf (hread.faithful hop) hlast env.wallMs (some id)).mono hnever

theorem hears_answer (request : UInt32) (answer : Answer) :
    Hears d (fun view => view) s (s.answer request answer).1 := by
  unfold Inner.answer
  split <;> exact hears_of_same rfl

theorem hears_deliverInfo (request : UInt32) (contentType : String) (size : Option UInt64) :
    Hears d (fun view => view) s (s.deliverInfo request contentType size).1 := by
  unfold deliverInfo
  split
  · exact (hears_of_same rfl).trans (hears_answer _ _)
  · exact hears_of_same rfl
  · exact hears_of_same rfl

theorem hears_deliverData (part : ResourcePart) :
    Hears d (fun view => view) s (s.deliverData part).1 := by
  unfold deliverData
  split
  · exact hears_of_same rfl
  · exact hears_of_same rfl
  · split
    · exact hears_of_same rfl
    · exact (hears_of_same rfl).trans (hears_answer _ _)
    · exact (hears_of_same rfl).trans (hears_answer _ _)
    · exact (hears_of_same rfl).trans (hears_answer _ _)

theorem hears_answerMirroring (env : Env) (id : ℕ) (sessionId : UInt16) :
    Hears d (fun view => view) s (s.answerMirroring shared env id sessionId).1 := by
  unfold answerMirroring
  split
  · split
    · exact hears_sendTo id fun _ => rfl
    · dsimp only
      exact hears_refuse _ _ _
  · dsimp only
    exact hears_refuse _ _ _

theorem hears_companionHello (id : ℕ) :
    Hears d (fun view => view) s (s.companionHello shared id) := by
  refine (hears_of_same (t := { s with
    providers := insertProvider s.providers (freeProvider s.providers) }) rfl).trans
    (hears_onPeer id fun peer => ?_)
  have hnamed : PeerHears (fun view => view) peer
      { peer with session := setCompanionProvider (freeProvider s.providers) peer.session } := by
    refine peerHears_quiet (fun session' hsession' => ?_) rfl rfl fun _ h => .inr h
    rcases hsession : peer.session with session | session
    · rw [hsession] at hsession'
      cases hsession'
    · exact ⟨session, rfl⟩
  have hsent := peerHears_sendFrame shared
    { peer with session := setCompanionProvider (freeProvider s.providers) peer.session }
    (.v4 (.companionHelloResponse (freeProvider s.providers)))
  exact hnamed.trans (hsent.congr fun _ _ _ => rfl)

theorem follows_applyV4 (hwf : s.player.WellFormed) (env : Env) (id : ℕ)
    (info : Option DeviceInfo) {command : V4Command} (hread : command.Read) :
    Follows shared d
      (if id = d then (operationV4 shared env command).bind fun op =>
        if (s.player.apply shared.lib op).2.isOk then op.relay else none else none)
      told s (s.applyV4 shared env id info command).1 := by
  unfold applyV4
  cases hop : operationV4 shared env command with
  | some op => exact follows_applyOperation hwf env id hread hop
  | none =>
    rw [Option.bind_none, ite_self]
    dsimp only
    split
    · exact .quiet (hears_companionHello id) rfl
    · exact .quiet (hears_deliverInfo _ _ _) (player_deliverInfo ..)
    · exact .quiet (hears_deliverData _) (player_deliverData ..)
    · exact .quiet (hears_answerMirroring _ _ _) (player_answerMirroring ..)
    · split
      · exact .quiet (hears_of_same rfl) rfl
      · dsimp only
        exact .quiet (hears_refuse _ _ _) (player_refuse ..)

theorem hears_setPeer {id : ℕ} (hpeer : s.peers id = some peer)
    (h : PeerHears (fun view => view) peer peer') :
    Hears d (fun view => view) s (s.setPeer id (some peer')) := by
  by_cases hid : d = id
  · subst hid
    intro after hafter
    rw [setPeer_self] at hafter
    cases hafter
    exact ⟨peer, hpeer, h⟩
  · exact hears_of_same (setPeer_of_ne _ hid _)

theorem peerHears_taken (peer : Peer) :
    PeerHears (fun view => view) peer { peer with actor := .reading } :=
  peerHears_quiet (fun session h => ⟨session, h⟩) rfl rfl fun _ h => (by cases h)

theorem peerHears_closing (peer : Peer) :
    PeerHears (fun view => view) peer { peer with actor := .closing } :=
  peerHears_quiet (fun session h => ⟨session, h⟩) rfl rfl fun _ h => (by cases h)

/-- A command that is applied is followed. -/
theorem follows_applyCommand (hwf : s.player.WellFormed) (hread : s.Orderly) (env : Env) (id : ℕ) :
    Follows shared d (ownRelay shared s d (.applyCommand env id))
      (¬ s.MovesUntold (.applyCommand env id)) s (s.applyCommand shared env id).1 := by
  unfold applyCommand
  cases hpeer : s.peers id with
  | none =>
    have hown : ownRelay shared s d (.applyCommand env id) = none := by
      simp [ownRelay, carried, hpeer]
    rw [hown]
    exact .quiet (hears_of_same rfl) rfl
  | some peer =>
    have htaken : Hears d (fun view => view) s
        (s.setPeer id (some { peer with actor := .reading })) :=
      hears_setPeer hpeer (peerHears_taken peer)
    dsimp only
    cases hactor : peer.actor with
    | reading | closing =>
      have hown : ownRelay shared s d (.applyCommand env id) = none := by
        simp [ownRelay, carried, hpeer, hactor]
      rw [hown]
      exact .quiet (hears_of_same rfl) rfl
    | carrying command =>
      cases command with
      | json command =>
        have hown : ownRelay shared s d (.applyCommand env id) = none := by
          simp [ownRelay, carried, hpeer, hactor]
        rw [hown]
        have hrelay : (operation shared env command).relay = none := by
          cases command <;> rfl
        have hfaithful : (operation shared env command).Faithful shared.localHost := by
          cases command <;> trivial
        have hsettle := @follows_operation shared
          (s.setPeer id (some { peer with actor := .reading })) d hwf _ hfaithful hrelay
          env.wallMs (some id)
        refine (hsettle.after htaken rfl).mono fun htold hmoves => htold ?_
        cases command with
        | setPlaylistItem index =>
          refine ⟨.setPlaylistItem index, ?_, hmoves⟩
          simp only [selection, hpeer, Option.bind_some, hactor]
        | _ => exact hmoves.elim
      | v4 command =>
        have hown : ownRelay shared s d (.applyCommand env id) =
            if id = d then (operationV4 shared env command).bind fun op =>
              if (s.player.apply shared.lib op).2.isOk then op.relay else none else none := by
          simp only [ownRelay, carried, hpeer, Option.bind_some, hactor]
        rw [hown]
        exact (@follows_applyV4 shared (s.setPeer id (some { peer with actor := .reading })) d
          _ hwf env id _ command (hread id peer command hpeer hactor)).after htaken rfl

/-! ### Everything else -/

theorem hears_act {id : ℕ} (hpeer : s.peers id = some peer) {session : PeerSession}
    (hv4 : ∀ session', session = .v4 session' → ∃ before, peer.session = .v4 before)
    {replies : List Frame} (hidle : ∀ reply ∈ replies, Idle reply) {command : Option Command}
    (hread : ∀ v4, command = some (.v4 v4) → v4.Read) :
    Hears d (fun view => view) s (s.act shared id peer session replies command) := by
  have hacting : ∀ actor : Actor, (∀ v4, actor = .carrying (.v4 v4) → v4.Read) →
      PeerHears (fun view => view) peer
        (({ peer with session, actor } : Peer).sendFrames shared replies) := by
    intro actor hactor
    have hquiet : PeerHears (fun view => view) peer { peer with session, actor } :=
      peerHears_quiet hv4 rfl rfl fun v4 h => .inl (hactor v4 h)
    exact hquiet.andThen (peerHears_idle shared _ hidle)
  refine hears_setPeer hpeer (hacting _ fun v4 hactor => ?_)
  cases command with
  | none => cases hactor
  | some command =>
    cases hactor
    exact hread v4 rfl

theorem hears_jsonFrame (id now wallMs : ℕ) (frame : JsonInbound) :
    Hears d (fun view => view) s (s.jsonFrame shared id now wallMs frame) := by
  unfold jsonFrame
  split
  next peer hpeer =>
    split
    next session hactor hsession =>
      dsimp only
      split
      next session' reaction hframe =>
        refine hears_act hpeer (fun _ h => by cases h) (fun reply hreply => ?_) fun v4 h => ?_
        · obtain ⟨answer, -, rfl⟩ := mem_map.mp hreply
          exact fun _ => rfl
        · obtain ⟨command, -, hcommand⟩ := Option.map_eq_some_iff.mp h
          cases hcommand
      · exact hears_setPeer hpeer (peerHears_closing peer)
    · exact hears_of_same rfl
  · exact hears_of_same rfl

theorem hears_v4Frame (id now : ℕ) (frame : RawFrame) :
    Hears d (fun view => view) s (s.v4Frame shared id now frame) := by
  unfold v4Frame
  split
  next peer hpeer =>
    split
    next session hactor hsession =>
      split
      next session' reaction hframe =>
        obtain ⟨hidle, hread⟩ := onFrame_ok hframe
        refine hears_act hpeer (fun _ _ => ⟨session, hsession⟩) (fun reply hreply => ?_)
          fun v4 h => ?_
        · obtain ⟨answer, hanswer, rfl⟩ := mem_map.mp hreply
          exact hidle answer hanswer
        · obtain ⟨command, hcommand, hv4⟩ := Option.map_eq_some_iff.mp h
          cases hv4
          exact hread v4 hcommand
      · exact hears_setPeer hpeer (peerHears_closing peer)
    · exact hears_of_same rfl
  · exact hears_of_same rfl

theorem hears_leave (id : ℕ) : Hears d (fun view => view) s (s.leave id) := by
  have hgone : ∀ leaving : List Leaving,
      Hears d (fun view => view) s { s.setPeer id none with leaving } := by
    intro leaving
    by_cases hid : d = id
    · subst hid
      intro peer' hpeer'
      cases (setPeer_self ..).symm.trans hpeer'
    · exact hears_of_same (setPeer_of_ne _ hid _)
  unfold leave
  split
  · exact hears_of_same rfl
  · split
    · exact hears_of_same rfl
    · exact hgone _
    · exact hgone _

theorem hears_register (request : UInt32) (url : CompanionUrl) (ask : Ask) :
    Hears d (fun view => view) s (s.register shared request url ask).1 := by
  unfold register
  split
  · dsimp only
    split
    · exact hears_of_same rfl
    next owner _ =>
      have hidle : Idle (ask.frame request url) := by cases ask <;> exact fun _ => rfl
      have hreplaced := @hears_answer { s with reserved := s.reserved.erase request } d request
        .wentAway
      refine Hears.andThen ?_ (hears_sendTo owner hidle)
      exact hreplaced
  · exact hears_of_same rfl

/-- The progress of what is playing leaves copies alone. -/
theorem hears_progress (env : Env) (due : ℕ → Bool) :
    Hears d (fun view => view) s (s.progress shared env due) := by
  unfold progress
  dsimp only
  split
  · exact hears_of_same rfl
  · refine hears_of_map rfl fun peer _ => peerHears_idle shared peer fun frame hframe => ?_
    split at hframe
    · have hsome := Option.mem_toList.mp hframe
      unfold progressFrame at hsome
      split at hsome
      · obtain ⟨reply, -, rfl⟩ := Option.map_eq_some_iff.mp hsome
        exact fun _ => rfl
      · obtain ⟨time, -, rfl⟩ := Option.map_eq_some_iff.mp hsome
        exact fun _ => rfl
    · exact absurd hframe not_mem_nil

/-- A heartbeat keeps the dialect, and sends at most a probe. -/
theorem onTick_v4 {now : ℕ} {session session' : PeerSession} {ping : Option Frame}
    (h : PeerSession.onTick now session = .ok (session', ping)) :
    (∀ after, session' = .v4 after → ∃ before, session = .v4 before) ∧
      ∀ frame ∈ ping.toList, Idle frame := by
  cases session with
  | json session =>
    rw [PeerSession.onTick] at h
    cases htick : session.onTick now with
    | error fault =>
      rw [htick] at h
      cases h
    | ok result =>
      rw [htick] at h
      cases h
      refine ⟨fun _ hjson => (by cases hjson), fun frame hframe => ?_⟩
      obtain ⟨probe, -, rfl⟩ := Option.map_eq_some_iff.mp (Option.mem_toList.mp hframe)
      exact fun _ => rfl
  | v4 session =>
    refine ⟨fun _ _ => ⟨session, rfl⟩, fun frame hframe => ?_⟩
    rw [PeerSession.onTick, SessionV4.onTick] at h
    split at h
    · cases h
    · cases h
      exact absurd hframe not_mem_nil
    · cases h
      cases mem_singleton.mp hframe
      exact fun _ => rfl

theorem peerHears_tickOne (now : ℕ) (peer : Peer) :
    PeerHears (fun view => view) peer (tickOne shared now peer) := by
  unfold tickOne
  split
  · split
    next session ping htick =>
      have hquiet : PeerHears (fun view => view) peer { peer with session } :=
        peerHears_quiet (onTick_v4 htick).1 rfl rfl fun _ h => .inr h
      exact hquiet.andThen (peerHears_idle shared _ (onTick_v4 htick).2)
    · exact peerHears_closing peer
  · exact .refl peer
  · exact .refl peer

theorem follows_mediaFailed (hwf : s.player.WellFormed) (env : Env) (message : String) :
    Follows shared d none told s (s.mediaFailed shared env message).1 := by
  have hwarned : Hears d (fun view => view) s
      (s.broadcast shared env.wallMs [.error message .resourceNotFound] none) := by
    intro peer' hpeer'
    obtain ⟨peer, hpeer, hhears⟩ := hears_broadcast env.wallMs _ none peer' hpeer'
    exact ⟨peer, hpeer, hhears.congr fun _ _ =>
      heard_unheard (unheard_single ⟨rfl, fun _ => rfl⟩) (some d == none)⟩
  have hstopped := @follows_operation shared
    (s.broadcast shared env.wallMs [.error message .resourceNotFound] none) d hwf .stop trivial rfl
    env.wallMs none
  exact (hstopped.mono fun _ => not_false).after hwarned rfl

/-- **One step**, as connection `d` hears it: a copy that was the queue is the
queue. -/
theorem follows_step (hwf : s.player.WellFormed) (hread : s.Orderly) (action : Action)
    (hd : action.connects = true → d ≠ s.nextPeer) :
    Follows shared d (ownRelay shared s d action) (¬ s.MovesUntold action) s
      (s.step shared action).1 := by
  cases action with
  | connectJson | connectV4 now => exact .quiet (hears_of_same (setPeer_of_ne _ (hd rfl) _)) rfl
  | jsonFrame id now wallMs frame =>
    exact .quiet (hears_jsonFrame id now wallMs frame) (player_frames ..)
  | v4Frame id now frame => exact .quiet (hears_v4Frame id now frame) (player_v4Frame ..)
  | applyCommand env id => exact follows_applyCommand hwf hread env id
  | leave id => exact .quiet (hears_leave id) (player_leave id)
  | abandon id =>
    refine .quiet (hears_of_same ?_) ?_ <;>
    · simp only [step, abandon]
      split <;> rfl
  | release id =>
    refine .quiet (hears_of_same ?_) ?_ <;>
    · simp only [step, release]
      split <;> rfl
  | issue env panel =>
    cases panel with
    | mute muted => exact .quiet (hears_of_same rfl) rfl
    | next =>
      exact (@follows_operation shared s d hwf (.step true) trivial rfl env.wallMs none).mono
        fun htold hmoves => htold ⟨_, rfl, hmoves⟩
    | previous =>
      exact (@follows_operation shared s d hwf (.step false) trivial rfl env.wallMs none).mono
        fun htold hmoves => htold ⟨_, rfl, hmoves⟩
    | play =>
      exact (@follows_operation shared s d hwf .resume trivial rfl env.wallMs none).mono
        fun _ => not_false
    | pause =>
      exact (@follows_operation shared s d hwf .pause trivial rfl env.wallMs none).mono
        fun _ => not_false
    | stop =>
      exact (@follows_operation shared s d hwf .stop trivial rfl env.wallMs none).mono
        fun _ => not_false
    | seek target =>
      exact (@follows_operation shared s d hwf (.seek _) trivial rfl env.wallMs none).mono
        fun _ => not_false
    | volume level =>
      exact (@follows_operation shared s d hwf (.setVolume _) trivial rfl env.wallMs none).mono
        fun _ => not_false
  | mediaEnded env ending =>
    exact (@follows_operation shared s d hwf (.mediaEnded ending) trivial rfl env.wallMs none).mono
      fun _ => not_false
  | verify url message =>
    simp only [step]
    split <;> exact .quiet (hears_of_same rfl) rfl
  | mediaFailed env message =>
    simp only [step]
    split
    · exact (@follows_mediaFailed shared { s with missing := s.missing.erase message } d _ hwf env
        message).after (hears_of_same rfl) rfl
    · exact .quiet (hears_of_same rfl) rfl
  | progress env due =>
    refine .quiet (hears_progress env due) ?_
    simp only [step, progress]
    split <;> rfl
  | tick id now => exact .quiet (hears_onPeer id (peerHears_tickOne now)) rfl
  | written id | writerStopped id =>
    exact .quiet (hears_onPeer id fun peer =>
      peerHears_quiet (fun session h => ⟨session, h⟩) rfl rfl fun _ h => .inr h) rfl
  | reserve => exact .quiet (hears_of_same rfl) rfl
  | register request url ask =>
    exact .quiet (hears_register request url ask) (player_register ..)
  | timeOut request =>
    simp only [step]
    split
    · split
      · exact .quiet ((hears_of_same rfl).andThen (hears_answer _ _)) (player_answer ..)
      · exact .quiet (hears_of_same rfl) rfl
    · exact .quiet (hears_of_same rfl) rfl
  | forget request =>
    simp only [step]
    split
    · have hremoved := @hears_answer { s with expired := s.expired.erase request } d request
        .wentAway
      exact .quiet (Hears.andThen hremoved (hears_of_same rfl)) (player_answer _ _)
    · exact .quiet (hears_of_same rfl) rfl

/-! ## Runs -/

/-- Every step is heard somehow. -/
theorem exists_hears (hwf : s.player.WellFormed) (hread : s.Orderly) (action : Action)
    (hd : action.connects = true → d ≠ s.nextPeer) :
    ∃ turn, Hears d turn s (s.step shared action).1 := by
  obtain ⟨turn, hhears, -⟩ := @follows_step shared s d hwf hread action hd
  exact ⟨turn, hhears⟩

theorem opened_reading (action : Action) (haction : action.connects = true)
    (hpeer : (s.step shared action).1.peers s.nextPeer = some peer) : peer.actor = .reading := by
  cases action with
  | connectJson =>
    cases (setPeer_self s s.nextPeer _).symm.trans hpeer
    rfl
  | connectV4 now =>
    cases (setPeer_self s s.nextPeer _).symm.trans hpeer
    exact sendFrames_actor _ _ _
  | _ => cases haction

/-- Commands in flight stay what was read. -/
theorem Orderly.step (hread : s.Orderly) (hwf : s.player.WellFormed) (action : Action) :
    (s.step shared action).1.Orderly := by
  intro id peer command hpeer hcarries
  by_cases hopened : action.connects = true ∧ id = s.nextPeer
  · obtain ⟨haction, rfl⟩ := hopened
    rw [opened_reading action haction hpeer] at hcarries
    cases hcarries
  · obtain ⟨turn, hhears⟩ := @exists_hears shared s id hwf hread action
      fun haction hid => hopened ⟨haction, hid⟩
    obtain ⟨before, hbefore, hchange⟩ := hhears peer hpeer
    rcases hchange.carries command hcarries with hnew | hold
    · exact hnew
    · exact hread id before command hbefore hold

theorem orderly_run (shared : Shared) (actions : List Action) : (run shared actions).Orderly := by
  induction actions using List.reverseRecOn with
  | nil => exact fun id peer command hpeer => (by cases hpeer)
  | append_singleton actions action ih =>
    rw [run_concat]
    exact ih.step (wellFormed_run shared actions) action

/-- Connections are numbered below `nextPeer`. -/
theorem lt_nextPeer_run (shared : Shared) (actions : List Action) {id : ℕ}
    (hpeer : (run shared actions).peers id = some peer) : id < (run shared actions).nextPeer := by
  induction actions using List.reverseRecOn generalizing peer with
  | nil => cases hpeer
  | append_singleton actions action ih =>
    rw [run_concat] at hpeer ⊢
    rw [nextPeer_step]
    by_cases hopened : action.connects = true ∧ id = (run shared actions).nextPeer
    · obtain ⟨haction, rfl⟩ := hopened
      rw [if_pos haction]
      exact Nat.lt_succ_self _
    · obtain ⟨turn, hhears⟩ := @exists_hears shared (run shared actions) id
        (wellFormed_run shared actions) (orderly_run shared actions) action
        fun haction hid => hopened ⟨haction, hid⟩
      obtain ⟨before, hbefore, -⟩ := hhears peer hpeer
      have hlt := ih hbefore
      split <;> omega

/-- A connection that is gone stays gone. -/
theorem gone_run {before : List Action} {id : ℕ} (hid : id < (run shared before).nextPeer)
    (hnone : (run shared before).peers id = none) (after : List Action) :
    (run shared (before ++ after)).peers id = none := by
  induction after using List.reverseRecOn with
  | nil => rwa [append_nil]
  | append_singleton after action ih =>
    have hbelow := nextPeer_run_le shared before after
    rw [← append_assoc, run_concat]
    cases hpeer : ((run shared (before ++ after)).step shared action).1.peers id with
    | none => rfl
    | some peer =>
      obtain ⟨turn, hhears⟩ := @exists_hears shared (run shared (before ++ after)) id
        (wellFormed_run shared _) (orderly_run shared _) action fun _ hopened => by omega
      obtain ⟨old, hold, -⟩ := hhears peer hpeer
      cases ih.symm.trans hold

/-- A connection has its number to itself, also after it has gone. -/
structure Numbered (shared : Shared) (actions : List Action) : Prop where
  /-- A connection that is opened has a number that none had before it. -/
  opened : ∀ before action after, actions = before ++ action :: after → action.connects = true →
    (∃ peer, (run shared (before ++ [action])).peers (run shared before).nextPeer = some peer) ∧
      ∀ earlier, earlier <+: before → (run shared earlier).peers (run shared before).nextPeer = none
  /-- None is connected under a number that was not handed out so. -/
  below : ∀ id peer, (run shared actions).peers id = some peer → id < (run shared actions).nextPeer
  /-- The number of a connection that has gone is not used again. -/
  gone : ∀ before after id peer, actions = before ++ after → ∀ since, since <+: before →
    (run shared since).peers id = some peer → (run shared before).peers id = none →
      (run shared actions).peers id = none

theorem numbered_run (shared : Shared) (actions : List Action) : Numbered shared actions where
  opened := fun before action after _ haction => by
    refine ⟨?_, ?_⟩
    · rw [run_concat]
      cases action with
      | connectJson | connectV4 now => exact ⟨_, setPeer_self _ _ _⟩
      | _ => cases haction
    · rintro earlier ⟨rest, rfl⟩
      cases hpeer : (run shared earlier).peers (run shared (earlier ++ rest)).nextPeer with
      | none => rfl
      | some peer =>
        have hlt := lt_nextPeer_run shared earlier hpeer
        exact absurd (nextPeer_run_le shared earlier rest) (Nat.not_le.mpr hlt)
  below := fun _ _ hpeer => lt_nextPeer_run shared actions hpeer
  gone := by
    rintro before after id peer rfl since ⟨rest, rfl⟩ hsince hnone
    have hlt := lt_nextPeer_run shared since hsince
    exact gone_run (hlt.trans_le (nextPeer_run_le shared since rest)) hnone after

/-- **In every run of the receiver** the current item is one of the queue, each
command on its way is what was read, and a connection has an identity that none
has before or after it. -/
theorem receiver_sound (shared : Shared) (actions : List Action) :
    (run shared actions).player.WellFormed ∧ (run shared actions).Orderly ∧
      Numbered shared actions :=
  ⟨wellFormed_run shared actions, orderly_run shared actions, numbered_run shared actions⟩

/-! ### The copy of one connection -/

/-- What connection `d` is sent in a step. -/
def newFrames (before after : Inner) (d : ℕ) : List Frame :=
  ((after.sentTo d).getD []).drop ((before.sentTo d).getD []).length

/-- A step, and what it makes of the copy that `d` keeps: `d` does to it what it
asked for itself, and then what it is told. -/
def follow (shared : Shared) (d : ℕ) (watched : Inner × Option View) (action : Action) :
    Inner × Option View :=
  let next := (watched.1.step shared action).1
  (next, hearAll (newFrames watched.1 next d)
    ((ownRelay shared watched.1 d action).elim watched.2 fun frame => hear frame watched.2))

/-- A run, and the copy that `d` keeps. -/
def watch (shared : Shared) (d : ℕ) (actions : List Action) : Inner × Option View :=
  actions.foldl (follow shared d) (.new, none)

theorem watch_concat (shared : Shared) (d : ℕ) (actions : List Action) (action : Action) :
    watch shared d (actions ++ [action]) = follow shared d (watch shared d actions) action :=
  foldl_concat ..

theorem watch_fst (shared : Shared) (d : ℕ) (actions : List Action) :
    (watch shared d actions).1 = run shared actions := by
  induction actions using List.reverseRecOn with
  | nil => rfl
  | append_singleton actions action ih =>
    rw [watch_concat, run_concat, follow, ih]

/-- A version 4 sender `d` that has been sent everything keeps the queue. -/
def Copied (shared : Shared) (d : ℕ) (inner : Inner) (view : Option View) : Prop :=
  ∀ peer session, inner.peers d = some peer → peer.session = .v4 session →
    peer.dropped = false → Sees shared.localHost inner.player view

/-- What a connection hears in a step is what is new among the frames it was
sent. -/
theorem Hears.newFrames (h : Hears d turn s t) {session' : SessionV4}
    (hpeer' : t.peers d = some peer') (hsession' : peer'.session = .v4 session')
    (hdropped : peer'.dropped = false) (view : Option View) :
    hearAll (Inner.newFrames s t d) view = turn view := by
  obtain ⟨peer, hpeer, hhears⟩ := h peer' hpeer'
  obtain ⟨-, frames, hsent, hturn⟩ := hhears.sent session' hsession' hdropped
  have hnew : Inner.newFrames s t d = frames := by
    rw [Inner.newFrames, sentTo, sentTo, hpeer, hpeer', Option.map_some, Option.map_some,
      Option.getD_some, Option.getD_some, hsent, drop_left]
  rw [hnew, hturn]

/-- A copy of the queue stays one, while moves are told. -/
theorem Copied.step {view : Option View} (h : Copied shared d s view) (hwf : s.player.WellFormed)
    (hread : s.Orderly) (hd : d < s.nextPeer) {action : Action} (htold : ¬ s.MovesUntold action) :
    Copied shared d (s.step shared action).1 (follow shared d (s, view) action).2 := by
  intro peer' session' hpeer' hsession' hdropped'
  obtain ⟨turn, hhears, hsees⟩ := @follows_step shared s d hwf hread action
    fun _ hid => absurd hid (Nat.ne_of_lt hd)
  obtain ⟨peer, hpeer, hchange⟩ := hhears peer' hpeer'
  obtain ⟨session, hsession⟩ := hchange.v4 session' hsession'
  obtain ⟨hdropped, -⟩ := hchange.sent session' hsession' hdropped'
  rw [follow, hhears.newFrames hpeer' hsession' hdropped']
  exact hsees htold view (h peer session hpeer hsession hdropped)

/-- The step applies the `Load` of a queue, and it is accepted. -/
def LoadsQueue (shared : Shared) (inner : Inner) (id : ℕ) : Prop :=
  ∃ items startIndex autoplay raw applied,
    inner.carried id = some (.load (.queue items startIndex autoplay) raw) ∧
    (inner.player.loadV4 shared.lib
      (resolveSource shared.localHost (.queue items startIndex autoplay)) raw).2 = .ok applied

/-- Everyone who is there hears of a load, whatever they saw before. -/
theorem copied_load (hread : s.Orderly) (env : Env) {id : ℕ} (hload : s.LoadsQueue shared id)
    (view : Option View) : Copied shared d (s.step shared (.applyCommand env id)).1
      (follow shared d (s, view) (.applyCommand env id)).2 := by
  obtain ⟨items, startIndex, autoplay, raw, applied, hcarried, hok⟩ := hload
  obtain ⟨peer, hpeer, hactor⟩ := carried_eq_some.mp hcarried
  obtain ⟨flat, hsource, rfl⟩ := hread id peer _ hpeer hactor
  rw [hsource] at hok hcarried hactor
  have hstep : (s.step shared (.applyCommand env id)).1 =
      ((s.setPeer id (some { peer with actor := .reading })).settle shared env.wallMs (some id)
        (s.player.loadV4 shared.lib (resolveSource shared.localHost (.fromFlat flat))
          (.load flat))).1 := by
    simp only [step, applyCommand, hpeer, hactor]
    rfl
  have hhears : Hears d _ s (s.step shared (.applyCommand env id)).1 :=
    hstep ▸ (hears_setPeer hpeer (peerHears_taken peer)).andThen (hears_settle env.wallMs (some id) _)
  have hown : (ownRelay shared s d (.applyCommand env id)).elim view (fun frame => hear frame view) =
      hearOwn (some d == some id)
        (.loadV4 (resolveSource shared.localHost (.fromFlat flat)) (.load flat)) view := by
    have haccepted : (s.player.apply shared.lib
        (.loadV4 (resolveSource shared.localHost (.fromFlat flat)) (.load flat))).2.isOk = true := by
      rw [Player.apply, hok]
      rfl
    have hrelay : ownRelay shared s d (.applyCommand env id) =
        if id = d then some (strippedRelayFrame (.load flat)) else none := by
      simp only [ownRelay, hcarried, Option.bind_some, operationV4, haccepted, if_true]
      rfl
    by_cases hid : id = d
    · rw [hrelay, if_pos hid, hid, hearOwn, if_pos (beq_self_eq_true _)]
      rfl
    · rw [hrelay, if_neg hid, hearOwn, if_neg fun h => hid (Option.some.inj (beq_iff_eq.mp h)).symm]
      rfl
  intro peer' session' hpeer' hsession' hdropped'
  rw [follow, hhears.newFrames hpeer' hsession' hdropped', hown, hstep, player_settle, heardOf, hok]
  exact sees_loadV4 (Prod.ext rfl hok) _ view

/-- No move of the pointer goes untold. -/
def AllTold (shared : Shared) (start : Inner) (actions : List Action) : Prop :=
  Along (fun inner action => (inner.step shared action).1)
    (fun inner action => ¬ inner.MovesUntold action) actions start

/-- **The run lemma**: from the load on, the copy is the queue. -/
theorem copied_run (shared : Shared) (d id : ℕ) (before : List Action) (env : Env)
    (after : List Action) (hthere : d < (run shared before).nextPeer)
    (hload : (run shared before).LoadsQueue shared id)
    (htold : AllTold shared (run shared (before ++ [.applyCommand env id])) after) :
    Copied shared d (run shared (before ++ .applyCommand env id :: after))
      (watch shared d (before ++ .applyCommand env id :: after)).2 := by
  induction after using List.reverseRecOn with
  | nil =>
    rw [run_concat, watch_concat, ← watch_fst shared d before]
    rw [← watch_fst shared d before] at hload
    exact copied_load (watch_fst shared d before ▸ orderly_run shared before) env hload _
  | append_singleton after action ih =>
    obtain ⟨hbefore, hlast, -⟩ := along_append.mp htold
    have hrun : after.foldl (fun inner action => (inner.step shared action).1)
        (run shared (before ++ [.applyCommand env id])) =
        run shared (before ++ .applyCommand env id :: after) := by
      rw [append_cons before _ after]
      exact List.foldl_append.symm
    rw [hrun] at hlast
    have hcopied := ih hbefore
    have hd := Nat.lt_of_lt_of_le hthere
      (nextPeer_run_le shared before (.applyCommand env id :: after))
    rw [← cons_append, ← append_assoc, run_concat, watch_concat]
    have hnext := hcopied.step (wellFormed_run _ _) (orderly_run _ _) hd hlast
    rwa [show (run shared (before ++ .applyCommand env id :: after),
      (watch shared d (before ++ .applyCommand env id :: after)).2) =
      watch shared d (before ++ .applyCommand env id :: after) from
        Prod.ext (watch_fst ..).symm rfl] at hnext

/-- **Version 4 senders see the queue of the receiver.**  `d` was there when a
queue was loaded, and it has been sent every frame.  If since then nobody moved
the pointer untold, its copy is the queue of the player, and the pointer of its
copy the player's, whenever a version 4 queue is loaded. -/
theorem views_follow (shared : Shared) (d id : ℕ) (before : List Action) (env : Env)
    (after : List Action) {first : Peer} (hthere : (run shared before).peers d = some first)
    (hload : (run shared before).LoadsQueue shared id)
    (htold : AllTold shared (run shared (before ++ [.applyCommand env id])) after)
    {peer : Peer} {session : SessionV4}
    (hpeer : (run shared (before ++ .applyCommand env id :: after)).peers d = some peer)
    (hsession : peer.session = .v4 session) (hsent : peer.dropped = false) {loaded : Loaded}
    (hloaded : (run shared (before ++ .applyCommand env id :: after)).player.loaded = some loaded)
    (hv4 : loaded.v4Queue = true) : (watch shared d (before ++ .applyCommand env id :: after)).2.map
      (Cursor.map (shown shared.localHost)) = some loaded.cursor :=
  copied_run shared d id before env after (lt_nextPeer_run shared before hthere) hload htold
    peer session hpeer hsession hsent loaded hloaded hv4

/-! ### Two films -/

def film (name : String) : FlatQueueItem :=
  ⟨⟨"video/mp4", "http://h/" ++ name, none, none, none, none, some name, none, none, none⟩, none⟩

/-- A version 3 sender and two of version 4 connect, and one of these sends a
queue of two films. -/
def filmsSent : List Action :=
  [.connectJson, .connectV4 0, .connectV4 0, .jsonFrame 0 0 0 (.version (some 3)),
    .v4Frame 1 0 (.flatbuf (some (.load (some (.queue [film "a", film "b"] none true)))))]

/-- The other version 4 sender puts a film in front. -/
def filmInserted : List Action :=
  [.v4Frame 2 0 (.flatbuf (some (.queueInsert (film "c") (some .front)))),
    .applyCommand exampleEnv 2]

/-- The version 3 sender selects the second film. -/
def filmSelected : List Action :=
  [.jsonFrame 0 0 0 (.setPlaylistItem (some 1)), .applyCommand exampleEnv 0]

theorem loadsQueue_filmsSent : (run exampleShared filmsSent).LoadsQueue exampleShared 1 :=
  ⟨_, _, _, _, _, rfl, rfl⟩

theorem allTold_filmInserted :
    AllTold exampleShared (run exampleShared (filmsSent ++ [.applyCommand exampleEnv 1]))
      filmInserted := by
  refine ⟨fun h => ?_, fun h => ?_, trivial⟩
  · obtain ⟨op, hop, -⟩ := h
    cases hop
  · obtain ⟨op, hop, -⟩ := h
    cases hop

theorem views_follow_films :
    (watch exampleShared 1 (filmsSent ++ .applyCommand exampleEnv 1 :: filmInserted)).2.map
      (Cursor.map (shown none)) =
        some ⟨[shown none (film "c"), shown none (film "a"), shown none (film "b")], 1⟩ :=
  views_follow exampleShared 1 1 filmsSent exampleEnv filmInserted rfl loadsQueue_filmsSent
    allTold_filmInserted rfl rfl rfl rfl rfl

/-- A version 3 sender moves the pointer of a version 4 queue, and version 4
senders are not told: their pointers stay where they were. -/
theorem selection_untold :
    ∃ first peer session loaded, (run exampleShared filmsSent).peers 2 = some first ∧
      (run exampleShared filmsSent).LoadsQueue exampleShared 1 ∧
      (run exampleShared (filmsSent ++ .applyCommand exampleEnv 1 :: filmSelected)).peers 2 =
        some peer ∧ peer.session = .v4 session ∧ peer.dropped = false ∧
      (run exampleShared (filmsSent ++ .applyCommand exampleEnv 1 :: filmSelected)).player.loaded =
        some loaded ∧ loaded.v4Queue = true ∧ loaded.index = 1 ∧
      (watch exampleShared 2 (filmsSent ++ .applyCommand exampleEnv 1 :: filmSelected)).2.map
        Cursor.index = some 0 :=
  ⟨_, _, _, _, rfl, loadsQueue_filmsSent, rfl, rfl, rfl, rfl, rfl, rfl, rfl⟩

end Inner

end Castaway.FCast
