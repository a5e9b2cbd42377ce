import Castaway.FCast.Steps

/-!
# Who holds a provider id

A version 4 connection asks for a provider id once, and holds it until it has
been closed: it leaves the table of peers, its reads are abandoned, and only
then is its id free again.  `Provided` says that the table of ids is exact and
that no two connections hold the same one.  It survives every step, except that
a connection which asks again is given a second id and the first is lost.

## Strategy

Most steps have nothing to do with ids; those are `Calm`, peer by peer, and
`calm_step` says so once for all of them.  What is left is a step lemma for each
move of an id: `Provided.connect`, `hello`, `leave`, `abandon` and `release`.
-/

namespace Castaway.FCast

open List

def PeerSession.isV4 : PeerSession → Bool
  | .json _ => false
  | .v4 _ => true

/-! ## Steps of one peer -/

/-- Only a version 4 session carries a version 4 command. -/
def Peer.Typed (peer : Peer) : Prop :=
  ∀ command, peer.actor = .carrying (.v4 command) → peer.session.isV4 = true

/-- A peer keeps its provider id, and carries what its session reads. -/
structure Peer.Calm (peer peer' : Peer) : Prop where
  provider : peer'.session.companionProvider = peer.session.companionProvider
  typed : peer.Typed → peer'.Typed

namespace Peer.Calm

variable {peer peer' peer'' : Peer}

theorem refl (peer : Peer) : peer.Calm peer := ⟨rfl, id⟩

theorem trans (h₁ : peer.Calm peer') (h₂ : peer'.Calm peer'') : peer.Calm peer'' :=
  ⟨h₂.provider.trans h₁.provider, fun h => h₂.typed (h₁.typed h)⟩

/-- A change of what is written to a peer is calm. -/
theorem of_same (hsession : peer'.session = peer.session) (hactor : peer'.actor = peer.actor) :
    peer.Calm peer' where
  provider := by rw [hsession]
  typed := fun h command hcommand => by
    rw [hsession]
    exact h command (hactor ▸ hcommand)

/-- So is one that ends the command it carries. -/
theorem of_idle (hsession : peer'.session = peer.session)
    (hactor : ∀ command, peer'.actor ≠ .carrying command) : peer.Calm peer' where
  provider := by rw [hsession]
  typed := fun _ command hcommand => absurd hcommand (hactor _)

theorem sendFrame (shared : Shared) (peer : Peer) (frame : Frame) :
    peer.Calm (peer.sendFrame shared frame) := by
  unfold Peer.sendFrame
  split <;> exact .of_same rfl rfl

/-- Writing frames to a peer is calm. -/
theorem sendFrames (shared : Shared) (peer : Peer) (frames : List Frame) :
    peer.Calm (peer.sendFrames shared frames) := by
  induction frames generalizing peer with
  | nil => exact .refl peer
  | cons frame frames ih => exact (Calm.sendFrame shared peer frame).trans (ih _)

end Peer.Calm

/-- No message gives a session its provider id: the id is set on answering. -/
theorem onMessage_provider (session : SessionV4) (packetNum : UInt32) (message : V4Inbound) :
    (session.onMessage packetNum message).1.companionProvider = session.companionProvider := by
  cases message with
  | playbackStateChanged state => cases state <;> rfl
  | speedChanged speed | mirroringSessionDescription sessionId sdp =>
    rw [SessionV4.onMessage]
    split <;> rfl
  | changeTrack id => rcases id with _ | id <;> rfl
  | _ => rfl

theorem onFrame_provider {session session' : SessionV4} {now : ℕ} {frame : RawFrame}
    {reaction : Reaction V4Frame V4Command}
    (h : session.onFrame now frame = .ok (session', reaction)) :
    session'.companionProvider = session.companionProvider := by
  unfold SessionV4.onFrame at h
  cases frame with
  | flatbuf body =>
    rcases body with _ | packet
    · cases h
    · dsimp only at h
      split at h
      · obtain rfl := congrArg Prod.fst (Except.ok.inj h)
        exact onMessage_provider _ _ _
      · cases h
        rfl
  | resource part =>
    rcases part with _ | part
    · cases h
    · cases h
      rfl
  | emptyFlatbuf => cases h
  | ping | pong | other => cases h; rfl

namespace Inner

variable {shared : Shared} {s t u : Inner}

theorem calm_tickOne (now : ℕ) (peer : Peer) : peer.Calm (tickOne shared now peer) := by
  unfold tickOne
  split
  next hactor =>
    split
    next session ping htick =>
      have hprovider : session.companionProvider = peer.session.companionProvider := by
        cases hsession : peer.session with
        | json before =>
          rw [hsession, PeerSession.onTick] at htick
          cases hbefore : before.onTick now with
          | error fault => rw [hbefore] at htick; cases htick
          | ok result => rw [hbefore] at htick; cases htick; rfl
        | v4 before =>
          rw [hsession, PeerSession.onTick, SessionV4.onTick] at htick
          split at htick <;> cases htick <;> rfl
      have hquiet : peer.Calm { peer with session } :=
        ⟨hprovider, fun _ command hcommand => by rw [hactor] at hcommand; cases hcommand⟩
      exact hquiet.trans (.sendFrames shared _ _)
    · exact .of_idle rfl fun _ h => by cases h
  · exact .refl peer
  · exact .refl peer

/-! ## Calm steps -/

/-- A step that has nothing to do with provider ids and with reads. -/
structure Calm (s t : Inner) : Prop where
  peers : ∀ id, Option.Rel Peer.Calm (s.peers id) (t.peers id)
  rest : t = { s with player := t.player, peers := t.peers, missing := t.missing }

namespace Calm

theorem rel_refl : ∀ peer : Option Peer, Option.Rel Peer.Calm peer peer
  | none => .none
  | some peer => .some (.refl peer)

theorem refl (s : Inner) : s.Calm s := ⟨fun _ => rel_refl _, rfl⟩

theorem trans (h₁ : s.Calm t) (h₂ : t.Calm u) : s.Calm u where
  peers := fun id => by
    have hfirst := h₁.peers id
    have hsecond := h₂.peers id
    generalize s.peers id = first at hfirst ⊢
    generalize t.peers id = second at hfirst hsecond
    generalize u.peers id = third at hsecond ⊢
    cases hfirst with
    | none => exact hsecond
    | some hfirst =>
      cases hsecond with
      | some hsecond => exact .some (hfirst.trans hsecond)
  rest := by rw [h₂.rest, h₁.rest]

/-- Peers that change calmly one by one, and nothing else, are a calm step. -/
theorem of_map {f : ℕ → Peer → Peer} (hf : ∀ id peer, Peer.Calm peer (f id peer))
    (hpeers : ∀ id, t.peers id = (s.peers id).map (f id))
    (hrest : t = { s with player := t.player, peers := t.peers, missing := t.missing }) :
    s.Calm t where
  peers := fun id => by
    rw [hpeers]
    cases s.peers id with
    | none => exact .none
    | some peer => exact .some (hf id peer)
  rest := hrest

theorem onPeer (id : ℕ) {f : Peer → Peer} (hf : ∀ peer, Peer.Calm peer (f peer)) :
    s.Calm (s.onPeer id f) where
  peers := fun other => by
    by_cases hother : other = id
    · subst hother
      rw [onPeer_self]
      cases s.peers other with
      | none => exact .none
      | some peer => exact .some (hf peer)
    · rw [onPeer_of_ne _ hother]
      exact rel_refl _
  rest := rfl

theorem setPeer {id : ℕ} {peer peer' : Peer} (hpeer : s.peers id = some peer)
    (h : peer.Calm peer') : s.Calm (s.setPeer id (some peer')) where
  peers := fun other => by
    by_cases hother : other = id
    · subst hother
      rw [setPeer_self, hpeer]
      exact .some h
    · rw [setPeer_of_ne _ hother]
      exact rel_refl _
  rest := rfl

theorem sendTo (id : ℕ) (frame : Frame) : s.Calm (s.sendTo shared id frame) :=
  onPeer id fun peer => .sendFrame shared peer frame

theorem refuse (wallMs : ℕ) (id : Option ℕ) (refusal : Refusal) :
    s.Calm (s.refuse shared wallMs id refusal) := by
  cases id with
  | none => exact refl s
  | some id => exact onPeer id fun peer => .sendFrames shared peer _

theorem player (s : Inner) (player : Player) : s.Calm { s with player } :=
  ⟨fun _ => rel_refl _, rfl⟩

theorem broadcast (wallMs : ℕ) (updates : List ReceiverUpdate) (initiator : Option ℕ) :
    s.Calm (s.broadcast shared wallMs updates initiator) :=
  of_map (fun _ peer => .sendFrames shared peer _) (fun _ => rfl) rfl

/-- Settling the outcome of an operation writes frames and moves the player. -/
theorem settle (wallMs : ℕ) (id : Option ℕ) (result : Player × Except Fault Applied) :
    s.Calm (s.settle shared wallMs id result).1 := by
  obtain ⟨after, refusal | applied⟩ := result
  · cases refusal with
    | refused refusal => exact (Calm.player s after).trans (refuse wallMs id refusal)
    | panic => exact Calm.player s after
  · exact (Calm.player s after).trans (broadcast wallMs applied.updates id)

theorem applyOperation (env : Env) (id : ℕ) (command : V4Command) (op : Operation) :
    s.Calm (s.applyOperation shared env id command op).1 := by
  dsimp only [Inner.applyOperation]
  split
  · exact (sendTo id _).trans (settle ..)
  · exact settle ..

theorem answerMirroring (env : Env) (id : ℕ) (sessionId : UInt16) :
    s.Calm (s.answerMirroring shared env id sessionId).1 := by
  unfold Inner.answerMirroring
  split
  · split
    · exact sendTo id _
    · dsimp only
      exact refuse ..
  · dsimp only
    exact refuse ..

/-- A reaction is calm when its command is of the session's own version. -/
theorem act {id : ℕ} {peer : Peer} (hpeer : s.peers id = some peer) {session : PeerSession}
    (hprovider : session.companionProvider = peer.session.companionProvider)
    {command : Option Command} (htyped : ∀ v4, command = some (.v4 v4) → session.isV4 = true)
    (replies : List Frame) : s.Calm (s.act shared id peer session replies command) := by
  have hacting : ∀ actor : Actor, (∀ v4, actor = .carrying (.v4 v4) → session.isV4 = true) →
      peer.Calm (({ peer with session, actor } : Peer).sendFrames shared replies) := by
    intro actor hactor
    have hquiet : peer.Calm { peer with session, actor } := ⟨hprovider, fun _ => hactor⟩
    exact hquiet.trans (.sendFrames shared _ _)
  refine setPeer hpeer (hacting _ fun v4 hactor => ?_)
  cases command with
  | none => cases hactor
  | some command =>
    cases hactor
    exact htyped v4 rfl

theorem jsonFrame (id now wallMs : ℕ) (frame : JsonInbound) :
    s.Calm (s.jsonFrame shared id now wallMs frame) := by
  unfold Inner.jsonFrame
  split
  next peer hpeer =>
    split
    next session hactor hsession =>
      dsimp only
      split
      · refine act hpeer (by rw [hsession]; rfl) (fun v4 h => ?_) _
        obtain ⟨command, -, hcommand⟩ := Option.map_eq_some_iff.mp h
        cases hcommand
      · exact setPeer hpeer (.of_idle rfl fun _ h => by cases h)
    · exact refl s
  · exact refl s

theorem v4Frame (id now : ℕ) (frame : RawFrame) : s.Calm (s.v4Frame shared id now frame) := by
  unfold Inner.v4Frame
  split
  next peer hpeer =>
    split
    next session hactor hsession =>
      split
      next session' reaction hframe =>
        refine act hpeer ?_ (fun _ _ => rfl) _
        rw [hsession]
        exact onFrame_provider hframe
      · exact setPeer hpeer (.of_idle rfl fun _ h => by cases h)
    · exact refl s
  · exact refl s

theorem progress (env : Env) (due : ℕ → Bool) : s.Calm (s.progress shared env due) := by
  unfold Inner.progress
  dsimp only
  split
  · exact refl s
  · exact of_map (fun _ peer => .sendFrames shared peer _) (fun _ => rfl) rfl

end Calm

theorem answers_emitted (events : Except Fault (List SessionEvent)) :
    (emitted events).answers = [] := by
  cases events <;> rfl

/-- The steps that open and close connections, apply commands and issue reads.
-/
def Action.routes : Action → Bool
  | .connectJson | .connectV4 _ | .applyCommand _ _ | .leave _ | .abandon _ | .release _
  | .reserve | .register _ _ _ | .timeOut _ | .forget _ => true
  | _ => false

/-- **Any other step is calm**, and answers no read. -/
theorem calm_step (action : Action) (h : Action.routes action = false) :
    s.Calm (s.step shared action).1 ∧ (s.step shared action).2.answers = [] := by
  cases action with
  | jsonFrame id now wallMs frame => exact ⟨.jsonFrame id now wallMs frame, rfl⟩
  | v4Frame id now frame => exact ⟨.v4Frame id now frame, rfl⟩
  | issue env panel =>
    refine ⟨?_, answers_emitted _⟩
    cases panel with
    | mute muted => exact .refl s
    | _ => exact .settle ..
  | mediaEnded env ending => exact ⟨.settle .., answers_emitted _⟩
  | verify url message =>
    simp only [step]
    split
    · exact ⟨⟨fun _ => Calm.rel_refl _, rfl⟩, rfl⟩
    · exact ⟨.refl s, rfl⟩
  | mediaFailed env message =>
    simp only [step]
    split
    · refine ⟨Calm.trans (t := { s with missing := s.missing.erase message })
        ⟨fun _ => Calm.rel_refl _, rfl⟩ (Calm.trans (.broadcast ..) (.settle ..)),
        answers_emitted _⟩
    · exact ⟨.refl s, rfl⟩
  | progress env due => exact ⟨.progress env due, rfl⟩
  | tick id now => exact ⟨.onPeer id (calm_tickOne now), rfl⟩
  | written id | writerStopped id => exact ⟨.onPeer id fun _ => .of_same rfl rfl, rfl⟩
  | _ => cases h

/-! ### Commands -/

/-- The receiver once the command of peer `id` has been taken up. -/
def taken (inner : Inner) (id : ℕ) : Inner :=
  inner.onPeer id fun peer => { peer with actor := .reading }

theorem calm_taken (s : Inner) (id : ℕ) : s.Calm (s.taken id) :=
  .onPeer id fun _ => .of_idle rfl fun _ h => by cases h

theorem setPeer_taken {id : ℕ} {peer : Peer} (hpeer : s.peers id = some peer) :
    s.setPeer id (some { peer with actor := .reading }) = s.taken id := by
  rw [taken, Inner.onPeer, hpeer]
  rfl

/-- A version 4 command is calm, unless it asks for a provider id or answers a
read. -/
theorem applyV4_cases (s : Inner) (env : Env) (id : ℕ) (info : Option DeviceInfo)
    (command : V4Command) :
    ((∀ part, command ≠ .companionData part) ∧ s.Calm (s.applyV4 shared env id info command).1 ∧
      (s.applyV4 shared env id info command).2.answers = []) ∨ (command = .companionHello ∧
      s.applyV4 shared env id info command = (s.companionHello shared id, .nothing)) ∨
    (∃ request contentType size, command = .companionInfo request contentType size ∧
      s.applyV4 shared env id info command = s.deliverInfo request contentType size) ∨
    ∃ part, command = .companionData part ∧
      s.applyV4 shared env id info command = s.deliverData part := by
  unfold applyV4
  cases hop : operationV4 shared env command with
  | some op =>
    refine .inl ⟨?_, .applyOperation .., answers_emitted _⟩
    rintro part rfl
    cases hop
  | none =>
    dsimp only
    split
    · exact .inr (.inl ⟨rfl, rfl⟩)
    · exact .inr (.inr (.inl ⟨_, _, _, rfl, rfl⟩))
    · exact .inr (.inr (.inr ⟨_, rfl, rfl⟩))
    · exact .inl ⟨nofun, .answerMirroring .., rfl⟩
    next hdata _ =>
      split
      · exact .inl ⟨hdata, .refl s, rfl⟩
      · dsimp only
        exact .inl ⟨hdata, .refuse .., rfl⟩

/-- **A command** is calm, unless it asks for a provider id or answers a read.
-/
theorem applyCommand_cases (s : Inner) (env : Env) (id : ℕ) :
    ((∀ part, s.carried id ≠ some (.companionData part)) ∧
      s.Calm (s.applyCommand shared env id).1 ∧ (s.applyCommand shared env id).2.answers = []) ∨
    (s.carried id = some .companionHello ∧
      s.applyCommand shared env id = ((s.taken id).companionHello shared id, .nothing)) ∨
    (∃ request contentType size, s.carried id = some (.companionInfo request contentType size) ∧
      s.applyCommand shared env id = (s.taken id).deliverInfo request contentType size) ∨
    ∃ part, s.carried id = some (.companionData part) ∧
      s.applyCommand shared env id = (s.taken id).deliverData part := by
  have hnot : ∀ peer, s.peers id = some peer → (∀ command, peer.actor ≠ .carrying (.v4 command)) →
      ∀ part, s.carried id ≠ some (.companionData part) := by
    intro peer hpeer hactor part hcarried
    obtain ⟨other, hother, hcarries⟩ := carried_eq_some.mp hcarried
    cases hpeer.symm.trans hother
    exact hactor _ hcarries
  unfold Inner.applyCommand
  cases hpeer : s.peers id with
  | none =>
    refine .inl ⟨fun part hcarried => ?_, .refl s, rfl⟩
    obtain ⟨other, hother, -⟩ := carried_eq_some.mp hcarried
    cases hpeer.symm.trans hother
  | some peer =>
    dsimp only
    cases hactor : peer.actor with
    | reading | closing => exact .inl ⟨hnot peer hpeer (by simp [hactor]), .refl s, rfl⟩
    | carrying command =>
      rw [setPeer_taken hpeer]
      have htaken := calm_taken s id
      cases command with
      | json command =>
        exact .inl ⟨hnot peer hpeer (by simp [hactor]), htaken.trans (.settle ..),
          answers_emitted _⟩
      | v4 command =>
        have hcarried : s.carried id = some command :=
          carried_eq_some.mpr ⟨peer, hpeer, hactor⟩
        rw [hcarried]
        rcases @applyV4_cases shared (s.taken id) env id (PeerSession.info peer.session) command with
          ⟨hdata, hcalm, hanswers⟩ | ⟨rfl, hhello⟩ | ⟨_, _, _, rfl, hinfo⟩ | ⟨_, rfl, hdata⟩
        · exact .inl ⟨fun part h => hdata part (Option.some.inj h), htaken.trans hcalm, hanswers⟩
        · exact .inr (.inl ⟨rfl, hhello⟩)
        · exact .inr (.inr (.inl ⟨_, _, _, rfl, hinfo⟩))
        · exact .inr (.inr (.inr ⟨_, rfl, hdata⟩))

/-! ## The table of ids -/

/-- The id that the connection `id` holds, as its session has it. -/
def provider? (inner : Inner) (id : ℕ) : Option UInt16 :=
  (inner.peers id).bind fun peer => peer.session.companionProvider

/-- A connection holds a provider id until it has been closed. -/
def Provides (inner : Inner) (id : ℕ) (provider : UInt16) : Prop :=
  inner.provider? id = some provider ∨
    ∃ abandoned, (⟨id, provider, abandoned⟩ : Leaving) ∈ inner.leaving

/-- The table of provider ids is exact. -/
structure Provided (inner : Inner) : Prop where
  mem : ∀ provider, provider ∈ inner.providers ↔ ∃ id, inner.Provides id provider
  unique : ∀ id other provider, inner.Provides id provider → inner.Provides other provider →
    id = other
  left : ∀ entry ∈ inner.leaving, inner.peers entry.peer = none ∧ entry.peer < inner.nextPeer
  once : (inner.leaving.map Leaving.peer).Nodup
  below : ∀ id peer, inner.peers id = some peer → id < inner.nextPeer
  typed : ∀ id peer, inner.peers id = some peer → peer.Typed

/-- A calm step leaves every id where it is. -/
theorem Calm.provider? (h : s.Calm t) (id : ℕ) : t.provider? id = s.provider? id := by
  have hpeers := h.peers id
  unfold Inner.provider?
  generalize s.peers id = before at hpeers ⊢
  generalize t.peers id = after at hpeers ⊢
  cases hpeers with
  | none => rfl
  | some hcalm => exact hcalm.provider

/-- Steps that keep the connections and the ids they hold. -/
theorem Provided.keep (h : s.Provided) (hprovides : ∀ id, t.provider? id = s.provider? id)
    (hpeers : ∀ id peer, t.peers id = some peer → ∃ before, s.peers id = some before)
    (htyped : ∀ id peer, t.peers id = some peer → peer.Typed)
    (hproviders : t.providers = s.providers) (hleaving : t.leaving = s.leaving)
    (hnext : t.nextPeer = s.nextPeer) : t.Provided := by
  have hsame : ∀ id provider, t.Provides id provider ↔ s.Provides id provider := by
    intro id provider
    rw [Provides, Provides, hprovides, hleaving]
  refine ⟨fun provider => ?_, fun id other provider hid hother => ?_, fun entry hentry => ?_, ?_,
    fun id peer hpeer => ?_, htyped⟩
  · rw [hproviders, h.mem]
    exact exists_congr fun id => (hsame id provider).symm
  · exact h.unique id other provider ((hsame id provider).mp hid) ((hsame other provider).mp hother)
  · rw [hleaving] at hentry
    rw [hnext]
    obtain ⟨hgone, hlt⟩ := h.left entry hentry
    refine ⟨Option.eq_none_iff_forall_ne_some.mpr fun peer hpeer => ?_, hlt⟩
    obtain ⟨before, hbefore⟩ := hpeers _ _ hpeer
    rw [hgone] at hbefore
    cases hbefore
  · rw [hleaving]
    exact h.once
  · rw [hnext]
    obtain ⟨before, hbefore⟩ := hpeers _ _ hpeer
    exact h.below id before hbefore

/-- A calm step keeps the table exact. -/
theorem Provided.calm (h : s.Provided) (hcalm : s.Calm t) : t.Provided := by
  have hback : ∀ id peer, t.peers id = some peer →
      ∃ before, s.peers id = some before ∧ before.Calm peer := by
    intro id peer hpeer
    have hrel := hcalm.peers id
    rw [hpeer] at hrel
    generalize hbefore : s.peers id = before at hrel
    cases hrel with
    | some hpeers => exact ⟨_, rfl, hpeers⟩
  refine h.keep hcalm.provider? (fun id peer hpeer => ?_) (fun id peer hpeer => ?_) ?_ ?_ ?_
  · obtain ⟨before, hbefore, -⟩ := hback id peer hpeer
    exact ⟨before, hbefore⟩
  · obtain ⟨before, hbefore, hpeers⟩ := hback id peer hpeer
    exact hpeers.typed (h.typed id before hbefore)
  · rw [hcalm.rest]
  · rw [hcalm.rest]
  · rw [hcalm.rest]

/-- A new connection holds no id, and its number is above all others. -/
theorem Provided.connect (h : s.Provided) {peer : Peer} (hreading : peer.actor = .reading)
    (hprovider : peer.session.companionProvider = none) :
    ({ s.setPeer s.nextPeer (some peer) with nextPeer := s.nextPeer + 1 } : Inner).Provided := by
  have hnone : s.peers s.nextPeer = none :=
    Option.eq_none_iff_forall_ne_some.mpr fun other hother =>
      absurd (h.below _ other hother) (Nat.lt_irrefl _)
  have hsame : ∀ id provider,
      ({ s.setPeer s.nextPeer (some peer) with nextPeer := s.nextPeer + 1 } : Inner).Provides id
        provider ↔ s.Provides id provider := by
    intro id provider
    refine or_congr ?_ Iff.rfl
    by_cases hid : id = s.nextPeer
    · subst hid
      simp only [Inner.provider?, setPeer_self, hnone, Option.bind_some, Option.bind_none, hprovider]
    · simp only [Inner.provider?, setPeer_of_ne _ hid]
  refine ⟨fun provider => ?_, fun id other provider hid hother => ?_, fun entry hentry => ?_,
    h.once, fun id other hother => ?_, fun id other hother => ?_⟩
  · exact (h.mem provider).trans (exists_congr fun id => (hsame id provider).symm)
  · exact h.unique id other provider ((hsame _ _).mp hid) ((hsame _ _).mp hother)
  · obtain ⟨hgone, hlt⟩ := h.left entry hentry
    exact ⟨(setPeer_of_ne _ (Nat.ne_of_lt hlt) _).trans hgone, Nat.lt_succ_of_lt hlt⟩
  · by_cases hid : id = s.nextPeer
    · exact hid ▸ Nat.lt_succ_self _
    · exact Nat.lt_succ_of_lt (h.below id other ((setPeer_of_ne _ hid _).symm.trans hother))
  · by_cases hid : id = s.nextPeer
    · subst hid
      cases (setPeer_self ..).symm.trans hother
      intro command hcommand
      rw [hreading] at hcommand
      cases hcommand
    · exact h.typed id other ((setPeer_of_ne _ hid _).symm.trans hother)

/-! ### Asking for an id -/

/-- The search for a free id ends at one that is free. -/
theorem firstFree_free {isTaken : ℕ → Bool} {fuel start id : ℕ}
    (h : firstFree isTaken fuel start = some id) : isTaken id = false := by
  induction fuel generalizing start with
  | zero => cases h
  | succ fuel ih =>
    rw [firstFree] at h
    split at h
    · exact ih h
    next hfree =>
      cases h
      exact Bool.eq_false_iff.mpr hfree

/-- It ends, when there is one within its fuel. -/
theorem firstFree_exists {isTaken : ℕ → Bool} {fuel start id : ℕ} (hfree : isTaken id = false)
    (hstart : start ≤ id) (hfuel : id < start + fuel) :
    ∃ found, firstFree isTaken fuel start = some found := by
  induction fuel generalizing start with
  | zero => omega
  | succ fuel ih =>
    rw [firstFree]
    split
    next htaken =>
      have hne : start ≠ id := by
        rintro rfl
        rw [hfree] at htaken
        cases htaken
      exact ih (by omega) (by omega)
    · exact ⟨start, rfl⟩

/-- The id handed out is in no use, as long as one of the 65536 is not. -/
theorem freeProvider_not_mem {providers : List UInt16} {free : UInt16} (h : free ∉ providers) :
    freeProvider providers ∉ providers := by
  obtain ⟨found, hfound⟩ := @firstFree_exists (fun id => (.ofNat id : UInt16) ∈ providers) 65536 0
    free.toNat (by simpa using h) (Nat.zero_le _) (by have := free.toNat_lt; omega)
  have hnot := firstFree_free hfound
  rw [freeProvider, hfound, Option.getD_some]
  exact of_decide_eq_false hnot

/-- A connection that asks for the first time is given an id nobody holds. -/
theorem Provided.hello (h : s.Provided) {id : ℕ} {peer : Peer} (hpeer : s.peers id = some peer)
    (hv4 : peer.session.isV4 = true) (hfirst : s.provider? id = none)
    (hfree : ∃ free, free ∉ s.providers) : (s.companionHello shared id).Provided := by
  obtain ⟨free, hfree⟩ := hfree
  have hnew := freeProvider_not_mem hfree
  have hself : (s.companionHello shared id).peers id = some (({ peer with
      session := setCompanionProvider (freeProvider s.providers) peer.session } : Peer).sendFrame
        shared (.v4 (.companionHelloResponse (freeProvider s.providers)))) := by
    rw [companionHello, onPeer_self, hpeer]
    rfl
  have hothers : ∀ other, other ≠ id → (s.companionHello shared id).peers other = s.peers other :=
    fun other hother => onPeer_of_ne _ hother _
  have hcalm := Peer.Calm.sendFrame shared
    { peer with session := setCompanionProvider (freeProvider s.providers) peer.session }
    (.v4 (.companionHelloResponse (freeProvider s.providers)))
  have hgiven : (s.companionHello shared id).provider? id = some (freeProvider s.providers) := by
    rw [Inner.provider?, hself, Option.bind_some, hcalm.provider]
    rcases hsession : peer.session with session | session
    · rw [hsession] at hv4
      cases hv4
    · rfl
  have hsame : ∀ other provider, (s.companionHello shared id).Provides other provider ↔
      s.Provides other provider ∨ (other = id ∧ provider = freeProvider s.providers) := by
    intro other provider
    by_cases hother : other = id
    · subst hother
      have hleaving : (s.companionHello shared other).leaving = s.leaving := rfl
      rw [Provides, Provides, hgiven, hfirst, hleaving]
      simp [eq_comm, or_comm]
    · have hleaving : (s.companionHello shared id).leaving = s.leaving := rfl
      rw [Provides, Provides, hleaving, Inner.provider?, hothers other hother]
      simp [hother, Inner.provider?]
  have hproviders : (s.companionHello shared id).providers =
      freeProvider s.providers :: s.providers := if_neg hnew
  refine ⟨fun provider => ?_, fun first second provider hx hy => ?_, fun entry hentry => ?_,
    h.once, fun other after hafter => ?_, fun other after hafter => ?_⟩
  · rw [hproviders, mem_cons, h.mem]
    constructor
    · rintro (rfl | ⟨other, hother⟩)
      · exact ⟨id, (hsame _ _).mpr (.inr ⟨rfl, rfl⟩)⟩
      · exact ⟨other, (hsame _ _).mpr (.inl hother)⟩
    · rintro ⟨other, hother⟩
      rcases (hsame _ _).mp hother with hold | ⟨-, hprovider⟩
      · exact .inr ⟨other, hold⟩
      · exact .inl hprovider
  · have hfresh : ∀ other, ¬ s.Provides other (freeProvider s.providers) :=
      fun other hother => hnew ((h.mem _).mpr ⟨other, hother⟩)
    rcases (hsame _ _).mp hx with hold | ⟨rfl, rfl⟩
    · rcases (hsame _ _).mp hy with hother | ⟨rfl, rfl⟩
      · exact h.unique _ _ _ hold hother
      · exact absurd hold (hfresh first)
    · rcases (hsame _ _).mp hy with hother | ⟨rfl, -⟩
      · exact absurd hother (hfresh second)
      · rfl
  · obtain ⟨hgone, hlt⟩ := h.left entry hentry
    have hne : entry.peer ≠ id := by
      intro heq
      rw [heq, hpeer] at hgone
      cases hgone
    exact ⟨(hothers _ hne).trans hgone, hlt⟩
  · by_cases hother : other = id
    · exact hother ▸ h.below id peer hpeer
    · exact h.below other after ((hothers other hother).symm.trans hafter)
  · by_cases hother : other = id
    · subst hother
      cases hself.symm.trans hafter
      refine hcalm.typed fun command hcommand => ?_
      rcases hsession : peer.session with session | session
      · rw [hsession] at hv4
        cases hv4
      · rfl
    · exact h.typed other after ((hothers other hother).symm.trans hafter)

/-! ### Closing -/

/-- A connection that leaves the table of peers keeps its id for the while. -/
theorem Provided.leave (h : s.Provided) (id : ℕ) : (s.leave id).Provided := by
  unfold Inner.leave
  cases hpeer : s.peers id with
  | none => exact h
  | some peer =>
    have hgone : ({ s.setPeer id none with leaving := s.leaving ++
        (peer.session.companionProvider.map fun provider =>
          (⟨id, provider, false⟩ : Leaving)).toList } : Inner).Provided := by
      have hnotleft : ∀ entry ∈ s.leaving, entry.peer ≠ id := by
        intro entry hentry heq
        have hgone := (h.left entry hentry).1
        rw [heq, hpeer] at hgone
        cases hgone
      have hsame : ∀ other provider, ({ s.setPeer id none with leaving := s.leaving ++
          (peer.session.companionProvider.map fun provider =>
            (⟨id, provider, false⟩ : Leaving)).toList } : Inner).Provides other provider ↔
            s.Provides other provider := by
        intro other provider
        by_cases hother : other = id
        · subst hother
          simp only [Provides, Inner.provider?, setPeer_self, hpeer, Option.bind_none,
            Option.bind_some, mem_append, Option.mem_toList]
          constructor
          · rintro (hnone | ⟨abandoned, hold | hnew⟩)
            · cases hnone
            · exact .inr ⟨abandoned, hold⟩
            · obtain ⟨held, hheld, hentry⟩ := Option.map_eq_some_iff.mp hnew
              cases hentry
              exact .inl hheld
          · rintro (hheld | ⟨abandoned, hold⟩)
            · exact .inr ⟨false, .inr (by rw [hheld]; rfl)⟩
            · exact .inr ⟨abandoned, .inl hold⟩
        · simp only [Provides, Inner.provider?, setPeer_of_ne _ hother, mem_append,
            Option.mem_toList]
          refine or_congr Iff.rfl (exists_congr fun abandoned => or_iff_left fun hnew => ?_)
          obtain ⟨held, -, hentry⟩ := Option.map_eq_some_iff.mp hnew
          cases hentry
          exact hother rfl
      refine ⟨fun provider => ?_, fun first second provider hx hy => ?_, fun entry hentry => ?_, ?_,
        fun other after hafter => ?_, fun other after hafter => ?_⟩
      · exact (h.mem provider).trans (exists_congr fun other => (hsame other provider).symm)
      · exact h.unique _ _ _ ((hsame _ _).mp hx) ((hsame _ _).mp hy)
      · rcases mem_append.mp hentry with hold | hnew
        · obtain ⟨hnone, hlt⟩ := h.left entry hold
          exact ⟨(setPeer_of_ne _ (hnotleft entry hold) _).trans hnone, hlt⟩
        · obtain ⟨held, -, rfl⟩ := Option.map_eq_some_iff.mp (Option.mem_toList.mp hnew)
          exact ⟨setPeer_self .., h.below id peer hpeer⟩
      · rw [map_append, nodup_append]
        refine ⟨h.once, ?_, fun first hfirst second hsecond heq => ?_⟩
        · cases peer.session.companionProvider with
          | none => exact nodup_nil
          | some provider => exact nodup_singleton _
        · obtain ⟨entry, hentry, rfl⟩ := mem_map.mp hfirst
          obtain ⟨new, hnew, rfl⟩ := mem_map.mp hsecond
          obtain ⟨held, -, rfl⟩ := Option.map_eq_some_iff.mp (Option.mem_toList.mp hnew)
          exact hnotleft entry hentry heq
      · by_cases hother : other = id
        · subst hother
          cases (setPeer_self s other none).symm.trans hafter
        · exact h.below other after ((setPeer_of_ne _ hother _).symm.trans hafter)
      · by_cases hother : other = id
        · subst hother
          cases (setPeer_self s other none).symm.trans hafter
        · exact h.typed other after ((setPeer_of_ne _ hother _).symm.trans hafter)
    dsimp only
    split
    · exact h
    · exact hgone
    · exact hgone

/-- Its reads are given up while the id is still its own. -/
theorem Provided.abandon (h : s.Provided) (id : ℕ) : (s.abandon id).1.Provided := by
  unfold Inner.abandon
  split
  · exact h
  next entry hentry =>
    have hpeers : ∀ other : Leaving, (if other = entry then { other with abandoned := true }
        else other).peer = other.peer := by
      intro other
      split <;> rfl
    have hsame : ∀ other provider,
        (∃ abandoned, (⟨other, provider, abandoned⟩ : Leaving) ∈ s.leaving.map fun left =>
          if left = entry then { left with abandoned := true } else left) ↔
          ∃ abandoned, (⟨other, provider, abandoned⟩ : Leaving) ∈ s.leaving := by
      intro other provider
      constructor
      · rintro ⟨abandoned, hmem⟩
        obtain ⟨left, hleft, heq⟩ := mem_map.mp hmem
        refine ⟨left.abandoned, ?_⟩
        split at heq <;> (cases heq; exact hleft)
      · rintro ⟨abandoned, hmem⟩
        by_cases heq : (⟨other, provider, abandoned⟩ : Leaving) = entry
        · exact ⟨true, mem_map.mpr ⟨_, hmem, by rw [if_pos heq]⟩⟩
        · exact ⟨abandoned, mem_map.mpr ⟨_, hmem, by rw [if_neg heq]⟩⟩
    refine ⟨fun provider => ?_, fun first second provider hx hy => ?_, fun left hleft => ?_, ?_,
      h.below, h.typed⟩
    · exact (h.mem provider).trans (exists_congr fun other => or_congr Iff.rfl (hsame _ _).symm)
    · exact h.unique _ _ _ (hx.imp_right (hsame _ _).mp) (hy.imp_right (hsame _ _).mp)
    · obtain ⟨before, hbefore, rfl⟩ := mem_map.mp hleft
      rw [hpeers]
      exact h.left before hbefore
    · rw [map_map]
      exact (map_congr_left fun other _ => hpeers other) ▸ h.once

/-- The id of a connection that has been closed is free. -/
theorem Provided.release (h : s.Provided) (id : ℕ) : (s.release id).Provided := by
  unfold Inner.release
  split
  · exact h
  next entry hentry =>
    have hmem := mem_of_find?_eq_some hentry
    have hheld : s.Provides entry.peer entry.provider := .inr ⟨entry.abandoned, hmem⟩
    -- the connection holds nothing but this id
    have honly : ∀ other provider,
        ({ s with
          providers := s.providers.filter (· ≠ entry.provider)
          leaving := s.leaving.filter (· ≠ entry) } : Inner).Provides other provider ↔
          s.Provides other provider ∧ provider ≠ entry.provider := by
      intro other provider
      constructor
      · intro hother
        have hbefore : s.Provides other provider :=
          hother.imp_right fun ⟨abandoned, hleft⟩ => ⟨abandoned, mem_of_mem_filter hleft⟩
        refine ⟨hbefore, ?_⟩
        rintro rfl
        obtain rfl := h.unique _ _ _ hbefore hheld
        rcases hother with hconnected | ⟨abandoned, hleft⟩
        · rw [Inner.provider?] at hconnected
          simp only [(h.left entry hmem).1] at hconnected
          cases hconnected
        · obtain ⟨hleft, hne⟩ := mem_filter.mp hleft
          exact (of_decide_eq_true hne) (inj_on_of_nodup_map h.once hleft hmem rfl)
      · rintro ⟨hconnected | ⟨abandoned, hleft⟩, hne⟩
        · exact .inl hconnected
        · refine .inr ⟨abandoned, mem_filter.mpr ⟨hleft, decide_eq_true fun heq => ?_⟩⟩
          rw [← heq] at hne
          exact hne rfl
    refine ⟨fun provider => ?_, fun first second provider hx hy => ?_, fun left hleft => ?_, ?_,
      h.below, h.typed⟩
    · simp only [honly, exists_and_right, ← h.mem]
      rw [mem_filter, decide_eq_true_iff]
    · exact h.unique _ _ _ ((honly _ _).mp hx).1 ((honly _ _).mp hy).1
    · exact h.left left (mem_of_mem_filter hleft)
    · exact h.once.sublist (List.filter_sublist.map _)

end Inner

end Castaway.FCast
