import Castaway.L2cap.Calls

/-!
# The identifiers our requests go out under

`alloc_id` hands out 1 to 255 and starts again, whatever is still unanswered.
Whether two requests share an identifier depends on everything that happened
since the older one was sent, so this file writes down what the rest of the
development forgets: the log of a run.  It has an entry for every identifier
taken, with the multiplexer as it is when the request goes out, and one for
every command of the peer, with the multiplexer as the command finds it.

## Strategy

1. `Books` is what the log and the states have to do with each other: between
   two entries nothing is recorded, and an entry records its own request at
   most.
2. `Kept` is what holds of the log so far: the counter says how many identifiers
   were taken, and a record is that of the last request under its identifier.
3. **The headline result** `identified_iff_timely`: the requests of a run never
   share an identifier exactly when none of them is sent while another, sent a
   multiple of 255 identifiers earlier, waits for its answer.
-/

namespace Castaway.L2cap

open Function List

/-- What the log of a run notes. -/
inductive Entry where
  /-- The next identifier is taken.  `m` is the multiplexer when the request
  goes out, before it is recorded; `request` is absent where the source takes an
  identifier and sends nothing. -/
  | taken (m : Multiplexer) (request : Option Signal)
  /-- A command of the peer is about to be handled. -/
  | command (m : Multiplexer) (sig : Signal)

namespace Multiplexer

/-! ## The log

Each method of the source that takes an identifier, or calls one that does, has
the entries it adds here, branch by branch. -/

/-- The entries of `request_configuration`.  The proposal before it is withdrawn
with its timer. -/
def requestConfigurationLog (m : Multiplexer) (raw : UInt16) : List Entry :=
  [.taken (m.retireTimers raw) ((m.channels raw).map m.proposalFor)]

/-- The entries of `fail_channel` and `fail_configuration`. -/
def failLog (m : Multiplexer) (cid : Cid) : List Entry :=
  match m.channels cid.raw with
  | none => []
  | some ch =>
    [.taken (m.forget cid.raw) (some (.disconnectionRequest m.nextId ch.remoteCid ch.localCid))]

def onConnectionRequestLog (m : Multiplexer) (psm : Psm) (sourceCid : Cid) : List Entry :=
  match m.listening.find? fun entry => entry.1 = psm with
  | none => []
  | some (_, mode) =>
    match m.allocCid with
    | (_, .error _) => []
    | (m, .ok localCid) =>
      (m.setChannel localCid.raw
        (.listened localCid sourceCid psm (m.modeMtu mode) mode)).requestConfigurationLog
          localCid.raw

def onConnectionResponseLog (m : Multiplexer) (id : UInt8) (destCid sourceCid : Cid)
    (result : ConnectionResult) : List Entry :=
  if result ≠ .success then []
  else
    let raw := m.responseChannel id sourceCid
    match m.channels raw with
    | none => []
    | some ch =>
      let ch := { ch with remoteCid := destCid, state := .waitConfig false false }
      ((m.setChannel raw ch).removePending id).requestConfigurationLog raw

def acceptConfigRequestLog (m : Multiplexer) (raw : UInt16) (ch : Channel) (continues : Bool)
    (options : List ConfigOption) : List Entry :=
  if continues then []
  else
    let ch := (ch.adopt m.localMtu m.receiveMps options).setIncomingDone
    let promoted := (m.setChannel raw ch).promoteIfConfigured raw
    if ch.mode ≠ ch.proposedMode then
      if ch.configAttempts ≥ maxConfigAttempts then promoted.1.failLog ⟨raw⟩
      else promoted.1.requestConfigurationLog raw
    else []

def onConfigRequestLog (m : Multiplexer) (destCid : Cid) (flags : UInt16)
    (options : List ConfigOption) : List Entry :=
  match m.channels destCid.raw with
  | none => []
  | some ch =>
    match ch.refusal m.receiveMps options with
    | some _ => []
    | none => m.acceptConfigRequestLog destCid.raw ch (flags &&& continuationFlag ≠ 0) options

def onConfigResponseLog (m : Multiplexer) (id : UInt8) (sourceCid : Cid) (result : ConfigResult)
    (options : List ConfigOption) : List Entry :=
  match m.channels sourceCid.raw with
  | none => []
  | some ch =>
    if ch.isStale id then []
    else
      match result with
      | .unacceptable =>
        let m := m.setChannel sourceCid.raw (ch.adoptCounter m.localMtu options)
        if ch.configAttempts ≥ maxConfigAttempts then m.failLog sourceCid
        else m.requestConfigurationLog sourceCid.raw
      | .pending | .success => []
      | _ => m.failLog sourceCid

/-- The entries of a handler, for a multiplexer that has retired the request
answered. -/
def dispatchLog (m : Multiplexer) (sig : Signal) (retired : Option Outstanding) : List Entry :=
  match sig with
  | .connectionRequest _ psm sourceCid => m.onConnectionRequestLog psm sourceCid
  | .connectionResponse id destCid sourceCid result _ =>
    m.onConnectionResponseLog id destCid sourceCid result
  | .configurationRequest _ destCid flags options => m.onConfigRequestLog destCid flags options
  | .configurationResponse id sourceCid _ result options =>
    m.onConfigResponseLog id sourceCid result options
  | .commandReject id _ _ =>
    match retired with
    | none => []
    | some out => (m.removePending id).failLog ⟨out.rawCid⟩
  | _ => []

def handleSignalLog (m : Multiplexer) (sig : Signal) : List Entry :=
  .command m sig ::
    match sig.answers with
    | some id => (m.removeOutstanding id).dispatchLog sig (m.outstanding id)
    | none => m.dispatchLog sig none

def handleSignalsLog : List Signal → Multiplexer → List Entry
  | [], _ => []
  | sig :: rest, m =>
    m.handleSignalLog sig ++
      match m.handleSignal sig with
      | (m, .ok _) => handleSignalsLog rest m
      | (_, .error _) => []

def handleDataLog (m : Multiplexer) (pdu : L2capPdu) : List Entry :=
  match m.channels pdu.cid.raw, m.ertm pdu.cid.raw with
  | some ch, some ertm =>
    if ch.state ≠ .open_ then []
    else
      match ertm.receive pdu.payload with
      | .ok (ertm, out) =>
        if out.failed then (m.setErtm pdu.cid.raw ertm).failLog ch.localCid else []
      | .error _ => []
  | _, _ => []

def connectWithLog (m : Multiplexer) (psm : Psm) : List Entry :=
  match m.allocCid with
  | (_, .error _) => []
  | (m, .ok localCid) => [.taken m (some (.connectionRequest m.nextId psm localCid))]

def sendLog (m : Multiplexer) (cid : Cid) (payload : Bytes) : List Entry :=
  match m.channels cid.raw, m.ertm cid.raw with
  | some ch, some ertm =>
    if ch.state ≠ .open_ ∨ payload.length > ch.remoteMtu.toNat then []
    else
      match ertm.send payload with
      | .ok (ertm, out) => if out.failed then (m.setErtm cid.raw ertm).failLog cid else []
      | .error _ => []
  | _, _ => []

/-- The entry of `disconnect`, which takes an identifier before it looks for the
channel. -/
def disconnectLog (m : Multiplexer) (cid : Cid) : List Entry :=
  match m.channels cid.raw with
  | none => [.taken m none]
  | some ch =>
    [.taken (((m.setChannel cid.raw { ch with state := .waitDisconnect }).removeErtm
        cid.raw).retireTimers cid.raw)
      (some (.disconnectionRequest m.nextId ch.remoteCid ch.localCid))]

def failEachLog : List Cid → Multiplexer → List Entry
  | [], _ => []
  | cid :: rest, m => m.failLog cid ++ failEachLog rest (m.failChannel cid).1

def tickLog (m : Multiplexer) (ids : List UInt8) (raws : List UInt16) (elapsed : ℕ) : List Entry :=
  let m := m.passTime elapsed
  let expired := (ids.filter m.hasExpired).foldl (fun acc id => expire acc.1 acc.2 id) (m, {})
  let ticked := raws.foldl (fun acc raw => tickErtm elapsed acc.1 acc.2 raw) expired
  failEachLog ticked.2.failed ticked.1

def callLog (m : Multiplexer) : Call → List Entry
  | .listenWith .. | .linkDown _ => []
  | .connectWith psm _ => m.connectWithLog psm
  | .send cid payload => m.sendLog cid payload
  | .disconnect cid => m.disconnectLog cid
  | .tick ids raws elapsed => m.tickLog ids raws elapsed
  | .handlePdu pdu =>
    if pdu.cid = .signaling then handleSignalsLog (Signal.decodeFrame pdu.payload).signals m
    else m.handleDataLog pdu

def log : List Call → Multiplexer → List Entry
  | [], _ => []
  | call :: rest, m => m.callLog call ++ log rest (m.perform call).1

/-! ## What the claim is about -/

/-- The identifier that comes next is no unanswered request's: no record is kept
under it, and no connection request of a channel that still exists. -/
def Fresh (m : Multiplexer) : Prop :=
  m.outstanding m.nextId = none ∧ ∀ raw, m.pending m.nextId = some raw → m.channels raw = none

end Multiplexer

open Multiplexer

def idsTaken (log : List Entry) : ℕ :=
  log.countP fun
    | .taken .. => true
    | .command .. => false

/-- The request an entry sends, if it goes out under `id` and is of the kind
asked for. -/
def Entry.sends (kind : Signal → Bool) (id : UInt8) : Entry → Option Signal
  | .taken m (some request) => if m.nextId = id ∧ kind request = true then some request else none
  | _ => none

/-- The last request of a kind that went out under `id`. -/
def lastUnder (kind : Signal → Bool) (id : UInt8) (log : List Entry) : Option Signal :=
  (log.filterMap (Entry.sends kind id)).getLast?

def Signal.isDial : Signal → Bool
  | .connectionRequest .. => true
  | _ => false

/-- What `log` holds before an entry, `Identified` asks of the entry.  A request
goes out under an identifier of its own, so recording it overwrites nothing.  An
answer finds under its identifier the record of the last request that went out
under it, and the channel of the last connection request that did. -/
def Entry.Identified (before : List Entry) : Entry → Prop
  | .taken m request => request.isSome = true → m.Fresh
  | .command m sig => ∀ id, sig.answers = some id →
      (∀ out, m.outstanding id = some out →
        lastUnder (fun _ => true) id before = some out.request) ∧
      ∀ raw, m.pending id = some raw →
        ∃ psm, lastUnder Signal.isDial id before = some (.connectionRequest id psm ⟨raw⟩)

/-- `request` went out under `id`, and the number of identifiers taken from then
up to the end of the log, its own included, is no multiple of 255. -/
def SentOffCycle (id : UInt8) (request : Signal) (log : List Entry) : Prop :=
  ∃ before m after, log = before ++ .taken m (some request) :: after ∧ m.nextId = id ∧
    ¬ 255 ∣ idsTaken after + 1

/-- No request is sent a multiple of 255 identifiers after one that is still
unanswered. -/
def Entry.Timely (before : List Entry) : Entry → Prop
  | .taken m request => request.isSome = true →
      (∀ id out, m.outstanding id = some out → SentOffCycle id out.request before) ∧
      ∀ id raw, m.pending id = some raw → (m.channels raw).isSome = true →
        ∃ psm, SentOffCycle id (.connectionRequest id psm ⟨raw⟩) before
  | .command .. => True

/-- A property of every entry of a log and of what comes before it. -/
def Throughout (P : List Entry → Entry → Prop) (log : List Entry) : Prop :=
  ∀ before entry after, log = before ++ entry :: after → P before entry

namespace Multiplexer

/-! ## The log and the states -/

/-- Nothing is recorded and no identifier taken on the way from `m` to `m'`.  A
record may go, or its timer be set. -/
structure Carries (m m' : Multiplexer) : Prop where
  nextId : m'.nextId = m.nextId
  outstanding : ∀ id out, m'.outstanding id = some out →
    ∃ old, m.outstanding id = some old ∧ old.request = out.request
  pending : ∀ id raw, m'.pending id = some raw → m.pending id = some raw

/-- One identifier is taken on the way from `m` to `m'`, and `request` is
recorded under it at most. -/
structure Takes (m : Multiplexer) (request : Option Signal) (m' : Multiplexer) : Prop where
  nextId : m'.nextId = m.allocId.nextId
  outstanding : ∀ id out, m'.outstanding id = some out →
    (∃ old, m.outstanding id = some old ∧ old.request = out.request) ∨
      id = m.nextId ∧ request = some out.request
  pending : ∀ id raw, m'.pending id = some raw →
    (m.pending id = some raw ∧
      (id = m.nextId → ∀ sent, request = some sent → sent.isDial = false)) ∨
      id = m.nextId ∧ ∃ psm, request = some (.connectionRequest id psm ⟨raw⟩)

/-- The entries lead from `m` to `m'`. -/
inductive Books : Multiplexer → List Entry → Multiplexer → Prop
  | idle {m m' : Multiplexer} (hcarries : Carries m m') : Books m [] m'
  | taken {m m₁ m₂ m' : Multiplexer} {request : Option Signal} {entries : List Entry}
      (hcarries : Carries m m₁) (htakes : Takes m₁ request m₂) (hrest : Books m₂ entries m') :
      Books m (.taken m₁ request :: entries) m'
  | command {m m₁ m' : Multiplexer} {sig : Signal} {entries : List Entry}
      (hcarries : Carries m m₁) (hrest : Books m₁ entries m') :
      Books m (.command m₁ sig :: entries) m'

variable {m m₁ m₂ m' : Multiplexer} {raw : UInt16} {ch : Channel} {entries : List Entry}

theorem Carries.refl (m : Multiplexer) : Carries m m :=
  ⟨rfl, fun _ out hout => ⟨out, hout, rfl⟩, fun _ _ hraw => hraw⟩

theorem Carries.trans (h : Carries m m₁) (h' : Carries m₁ m₂) : Carries m m₂ where
  nextId := h'.nextId.trans h.nextId
  outstanding := by
    intro id out hout
    obtain ⟨mid, hmid, hsame⟩ := h'.outstanding id out hout
    obtain ⟨old, hold, hsame'⟩ := h.outstanding id mid hmid
    exact ⟨old, hold, hsame'.trans hsame⟩
  pending := fun id raw hraw => h.pending id raw (h'.pending id raw hraw)

/-- A method that leaves the identifiers alone. -/
theorem Carries.of_eq (hnextId : m'.nextId = m.nextId)
    (houtstanding : m'.outstanding = m.outstanding)
    (hpending : m'.pending = m.pending) : Carries m m' := by
  refine ⟨hnextId, ?_, ?_⟩
  · intro id out hout
    exact ⟨out, houtstanding ▸ hout, rfl⟩
  · intro id raw hraw
    rwa [hpending] at hraw

theorem carries_retireTimers (m : Multiplexer) (raw : UInt16) : Carries m (m.retireTimers raw) := by
  refine ⟨rfl, ?_, fun _ _ hraw => hraw⟩
  intro id out hout
  exact ⟨out, (Option.filter_eq_some_iff.mp hout).1, rfl⟩

theorem carries_forget (m : Multiplexer) (raw : UInt16) : Carries m (m.forget raw) :=
  (carries_retireTimers m raw).trans (.of_eq rfl rfl rfl)

theorem carries_removeOutstanding (m : Multiplexer) (id : UInt8) :
    Carries m (m.removeOutstanding id) := by
  refine ⟨rfl, ?_, fun _ _ hraw => hraw⟩
  intro k out hout
  rw [removeOutstanding_outstanding] at hout
  by_cases hk : k = id
  · simp [hk] at hout
  · rw [update_of_ne hk] at hout
    exact ⟨out, hout, rfl⟩

theorem carries_removePending (m : Multiplexer) (id : UInt8) : Carries m (m.removePending id) := by
  refine ⟨rfl, fun _ out hout => ⟨out, hout, rfl⟩, ?_⟩
  intro k raw hraw
  rw [removePending_pending] at hraw
  by_cases hk : k = id
  · simp [hk] at hraw
  · rwa [update_of_ne hk] at hraw

/-- A record goes back under the identifier it had. -/
theorem carries_setOutstanding {id : UInt8} {old out : Outstanding} (hcarries : Carries m m₁)
    (hold : m.outstanding id = some old) (hsame : old.request = out.request) :
    Carries m (m₁.setOutstanding id out) := by
  refine ⟨hcarries.nextId, ?_, hcarries.pending⟩
  intro k out' hout
  rw [setOutstanding_outstanding] at hout
  by_cases hk : k = id
  · rw [hk, update_self] at hout
    rw [hk]
    cases hout
    exact ⟨old, hold, hsame⟩
  · rw [update_of_ne hk] at hout
    exact hcarries.outstanding k out' hout

theorem carries_opened (m : Multiplexer) (raw : UInt16) (ch : Channel) :
    Carries m (m.opened raw ch) := by
  have hretired : Carries m
      ((m.setChannel raw { ch with state := .open_ }).retireTimers raw) :=
    (carries_retireTimers m raw).trans (.of_eq rfl rfl rfl)
  unfold opened
  dsimp only
  split
  · exact hretired.trans (.of_eq rfl rfl rfl)
  · exact hretired

theorem Promotion.carries {ch' : Channel} {events : List L2capEvent}
    (hpromotion : Promotion m raw ch m' ch' events) : Carries m m' := by
  cases hpromotion with
  | waiting => exact .refl m
  | opened => exact carries_opened m raw ch

/-! ### One identifier -/

/-- The identifier is taken and nothing is recorded. -/
theorem takes_allocId {request : Option Signal}
    (hdial : ∀ sent, request = some sent → sent.isDial = false) : Takes m request m.allocId where
  nextId := rfl
  outstanding := fun _ out hout => .inl ⟨out, hout, rfl⟩
  pending := fun _ _ hraw => .inl ⟨hraw, fun _ => hdial⟩

theorem Takes.awaiting {request : Signal} (h : Takes m (some request) m') (raw : UInt16) :
    Takes m (some request) (m'.awaiting m.nextId raw request) := by
  refine ⟨h.nextId, ?_, h.pending⟩
  intro id out hout
  rw [Multiplexer.awaiting, setOutstanding_outstanding] at hout
  by_cases hid : id = m.nextId
  · rw [hid, update_self] at hout
    cases hout
    exact .inr ⟨hid, rfl⟩
  · rw [update_of_ne hid] at hout
    exact h.outstanding id out hout

theorem Takes.of_eq {request : Option Signal} (h : Takes m request m₁)
    (hnextId : m'.nextId = m₁.nextId) (houtstanding : m'.outstanding = m₁.outstanding)
    (hpending : m'.pending = m₁.pending) : Takes m request m' := by
  refine ⟨hnextId.trans h.nextId, ?_, ?_⟩
  · rw [houtstanding]
    exact h.outstanding
  · rw [hpending]
    exact h.pending

theorem Books.one {request : Option Signal} (hcarries : Carries m m₁)
    (htakes : Takes m₁ request m') : Books m [.taken m₁ request] m' :=
  .taken hcarries htakes (.idle (.refl m'))

theorem Books.carried (h : Books m₁ entries m') (hcarries : Carries m m₁) : Books m entries m' := by
  cases h with
  | idle hidle => exact .idle (hcarries.trans hidle)
  | taken hnext htakes hrest => exact .taken (hcarries.trans hnext) htakes hrest
  | command hnext hrest => exact .command (hcarries.trans hnext) hrest

theorem Books.append {more : List Entry} (h : Books m entries m₁) (hmore : Books m₁ more m') :
    Books m (entries ++ more) m' := by
  induction h with
  | idle hidle => exact hmore.carried hidle
  | taken hnext htakes _ ih => exact .taken hnext htakes (ih hmore)
  | command hnext _ ih => exact .command hnext (ih hmore)

/-! ### The methods -/

theorem books_requestConfiguration (hch : m.channels raw = some ch) :
    Books m (m.requestConfigurationLog raw) (m.proposed raw ch) := by
  unfold requestConfigurationLog
  rw [hch]
  refine .one (carries_retireTimers m raw) ?_
  have halloc : Takes (m.retireTimers raw) (some (m.proposalFor ch)) (m.retireTimers raw).allocId :=
    takes_allocId fun sent hsent => by cases hsent; rfl
  have hset : Takes (m.retireTimers raw) (some (m.proposalFor ch))
      ((m.allocId.retireTimers raw).setChannel raw (ch.proposing m.nextId)) :=
    halloc.of_eq rfl rfl rfl
  exact hset.awaiting raw

/-- The entry of a channel given up on, and what may follow it. -/
theorem takes_disconnection (m : Multiplexer) (ch : Channel) (raw : UInt16) :
    Takes (m.forget raw) (some (.disconnectionRequest m.nextId ch.remoteCid ch.localCid))
      (m.forget raw).allocId :=
  takes_allocId fun sent hsent => by cases hsent; rfl

theorem books_failChannel (m : Multiplexer) (cid : Cid) :
    Books m (m.failLog cid) (m.failChannel cid).1 := by
  unfold failLog
  cases hch : m.channels cid.raw with
  | none =>
    rw [failChannel_none hch]
    exact .idle ((carries_retireTimers m cid.raw).trans (.of_eq rfl rfl rfl))
  | some ch =>
    rw [failChannel_some hch]
    exact .one (carries_forget m cid.raw) (takes_disconnection m ch cid.raw)

theorem books_failConfiguration {cid : Cid} (hch : m.channels cid.raw = some ch) :
    Books m (m.failLog cid) (m.failConfiguration cid).1 := by
  unfold failLog
  rw [hch, failConfiguration_some hch]
  exact .one (carries_forget m cid.raw) ((takes_disconnection m ch cid.raw).awaiting cid.raw)

theorem carries_closeChannel (m : Multiplexer) (raw : UInt16) :
    Carries m (m.closeChannel raw).1 := by
  cases hch : m.channels raw with
  | none =>
    rw [closeChannel_none hch]
    exact (carries_retireTimers m raw).trans (.of_eq rfl rfl rfl)
  | some ch =>
    rw [closeChannel_some hch]
    exact carries_forget m raw

theorem carries_allocCid (m : Multiplexer) : Carries m m.allocCid.1 := .of_eq rfl rfl rfl

/-! ### Commands of the peer -/

theorem books_onConnectionRequest (m : Multiplexer) (id : UInt8) (psm : Psm) (sourceCid : Cid) :
    Books m (m.onConnectionRequestLog psm sourceCid)
      (m.onConnectionRequest id psm sourceCid).1 := by
  unfold onConnectionRequestLog onConnectionRequest
  cases m.listening.find? fun entry => entry.1 = psm with
  | none => exact .idle (.refl m)
  | some entry =>
    have hcid := carries_allocCid m
    dsimp only
    generalize m.allocCid = allocated at hcid ⊢
    obtain ⟨m₁, full | localCid⟩ := allocated
    · exact .idle hcid
    · rw [andThen_ok, signal_connectionResponse, andThen_ok,
        requestConfiguration_some (update_self ..)]
      refine (books_requestConfiguration (update_self ..)).carried ?_
      exact hcid.trans (.of_eq rfl rfl rfl)

theorem books_onConnectionResponse (m : Multiplexer) (id : UInt8) (destCid sourceCid : Cid)
    (result : ConnectionResult) : Books m (m.onConnectionResponseLog id destCid sourceCid result)
      (m.onConnectionResponse id destCid sourceCid result).1 := by
  unfold onConnectionResponseLog
  refine onConnectionResponse_cases
    (P := fun outcome => Books m (if result ≠ .success then [] else _) outcome.1)
    (fun hignored => ?_) (fun ch hch hpending hrefused => ?_) (fun ch hch hsuccess => ?_)
  · rcases hignored with rfl | hnone
    · exact .idle (.refl m)
    · simp only [hnone, ite_self]
      exact .idle (.refl m)
  · rw [if_pos hrefused]
    exact .idle ((carries_removePending m id).trans (.of_eq rfl rfl rfl))
  · rw [if_neg (not_not.mpr hsuccess)]
    simp only [hch]
    refine (books_requestConfiguration ?_).carried ?_
    · rw [removePending_channels, setChannel_channels, update_self]
    · have hset : Carries m (m.setChannel (m.responseChannel id sourceCid)
          { ch with remoteCid := destCid, state := .waitConfig false false }) := .of_eq rfl rfl rfl
      exact hset.trans (carries_removePending _ id)

theorem books_acceptConfigRequest (m : Multiplexer) (id : UInt8) (raw : UInt16) (ch : Channel)
    (continues : Bool) (options : List ConfigOption) :
    Books m (m.acceptConfigRequestLog raw ch continues options)
      (m.acceptConfigRequest id raw ch continues options).1 := by
  unfold acceptConfigRequestLog acceptConfigRequest
  cases continues with
  | true =>
    simp only [signal_acceptance, if_true, andThen_ok]
    exact .idle (.of_eq rfl rfl rfl)
  | false =>
    have hset : (m.setChannel raw
        (ch.adopt m.localMtu m.receiveMps options).setIncomingDone).channels raw =
        some (ch.adopt m.localMtu m.receiveMps options).setIncomingDone :=
      update_self ..
    obtain ⟨m₂, ch₂, events, hpromotion, hpromote⟩ := promotion hset
    have hch₂ := hpromotion.channel hset
    have hcarries : Carries m m₂ := by
      refine Carries.trans ?_ hpromotion.carries
      exact .of_eq rfl rfl rfl
    simp only [signal_acceptance, Bool.false_eq_true, if_false, andThen_ok, hpromote]
    split
    · split
      · exact (books_failConfiguration hch₂).carried hcarries
      · rw [requestConfiguration_some hch₂, andThen_ok]
        exact (books_requestConfiguration hch₂).carried hcarries
    · exact .idle hcarries

theorem books_onConfigRequest (m : Multiplexer) (id : UInt8) (destCid : Cid) (flags : UInt16)
    (options : List ConfigOption) : Books m (m.onConfigRequestLog destCid flags options)
      (m.onConfigRequest id destCid flags options).1 := by
  unfold onConfigRequestLog onConfigRequest
  cases m.channels destCid.raw with
  | none => exact .idle (.refl m)
  | some ch =>
    dsimp only
    cases ch.refusal m.receiveMps options with
    | some refusal => exact .idle (.refl m)
    | none => exact books_acceptConfigRequest ..

/-- `base` is the multiplexer before the request answered was retired: a
`Pending` answer puts the record back. -/
theorem books_onConfigResponse {base : Multiplexer} {id : UInt8} {retired : Option Outstanding}
    (hcarries : Carries base m) (hretired : ∀ out, retired = some out → base.outstanding id = some out)
    (sourceCid : Cid) (result : ConfigResult) (options : List ConfigOption) :
    Books base (m.onConfigResponseLog id sourceCid result options)
      (m.onConfigResponse id sourceCid result options retired).1 := by
  have hset {ch : Channel} : Carries base (m.setChannel sourceCid.raw ch) :=
    hcarries.trans (.of_eq rfl rfl rfl)
  unfold onConfigResponseLog
  refine onConfigResponse_cases (P := fun outcome => Books base _ outcome.1)
    (fun hignored => ?_) (fun ch hch hstale hresult hmax => ?_)
    (fun ch hch hstale hresult hmax => ?_) (fun ch hch hstale hresult => ?_)
    (fun ch hch hstale hresult m₂ ch₂ events hpromotion => ?_)
    (fun ch hch hstale hcounter hpending hsuccess => ?_)
  · cases hch : m.channels sourceCid.raw with
    | none => exact .idle hcarries
    | some ch =>
      rw [hch] at hignored
      simp only [show ch.isStale id = true from hignored, if_true]
      exact .idle hcarries
  · simp only [hch, hstale, hresult, if_pos hmax, Bool.false_eq_true, if_false, ge_iff_le]
    exact (books_failConfiguration (update_self ..)).carried hset
  · simp only [hch, hstale, hresult, if_neg (Nat.not_le.mpr hmax), Bool.false_eq_true, if_false,
      ge_iff_le]
    exact (books_requestConfiguration (update_self ..)).carried hset
  · simp only [hch, hstale, hresult, Bool.false_eq_true, if_false]
    cases retired with
    | none => exact .idle hset
    | some out =>
      have hback := hretired out rfl
      exact .idle (carries_setOutstanding hset hback rfl)
  · simp only [hch, hstale, hresult, Bool.false_eq_true, if_false]
    exact .idle (hset.trans hpromotion.carries)
  · have hfail : Books base (m.failLog sourceCid) (m.failConfiguration sourceCid).1 :=
      (books_failConfiguration hch).carried hcarries
    simp only [hch, hstale, Bool.false_eq_true, if_false]
    cases result with
    | unacceptable => exact absurd rfl hcounter
    | pending => exact absurd rfl hpending
    | success => exact absurd rfl hsuccess
    | rejected | unknownOptions | other => exact hfail

theorem books_dispatch {base : Multiplexer} {sig : Signal} {retired : Option Outstanding}
    (hcarries : Carries base m) (hretired : ∀ id out, sig.answers = some id → retired = some out →
      base.outstanding id = some out) :
    Books base (m.dispatchLog sig retired) (m.dispatch sig retired).1 := by
  cases sig with
  | connectionRequest id psm sourceCid =>
    exact (books_onConnectionRequest m id psm sourceCid).carried hcarries
  | connectionResponse id destCid sourceCid result status =>
    exact (books_onConnectionResponse m id destCid sourceCid result).carried hcarries
  | configurationRequest id destCid flags options =>
    exact (books_onConfigRequest m id destCid flags options).carried hcarries
  | configurationResponse id sourceCid flags result options =>
    exact books_onConfigResponse hcarries (fun out => hretired id out rfl) ..
  | disconnectionRequest id destCid sourceCid =>
    simp only [Multiplexer.dispatch, signal_disconnectionResponse, andThen_ok]
    exact .idle (hcarries.trans (carries_closeChannel m _))
  | disconnectionResponse id destCid sourceCid =>
    exact .idle (hcarries.trans (carries_closeChannel m _))
  | commandReject id reason data =>
    cases retired with
    | none => exact .idle hcarries
    | some out =>
      have hremoved := hcarries.trans (carries_removePending m id)
      exact (books_failChannel _ _).carried hremoved
  | echoRequest | echoResponse | informationRequest | informationResponse =>
    exact .idle hcarries

theorem books_handleSignal (m : Multiplexer) (sig : Signal) :
    Books m (m.handleSignalLog sig) (m.handleSignal sig).1 := by
  unfold handleSignalLog handleSignal
  refine .command (.refl m) ?_
  cases hanswers : sig.answers with
  | none =>
    refine books_dispatch (.refl m) ?_
    intro id out hid hnone
    cases hnone
  | some id =>
    refine books_dispatch (carries_removeOutstanding m id) ?_
    intro k out hk hout
    rw [hanswers] at hk
    cases hk
    exact hout

theorem books_handleSignals (signals : List Signal) (m : Multiplexer) (out : List L2capEvent) :
    Books m (handleSignalsLog signals m) (handleSignals signals m out).1 := by
  induction signals generalizing m out with
  | nil => exact .idle (.refl m)
  | cons sig rest ih =>
    have hfirst := books_handleSignal m sig
    unfold handleSignalsLog handleSignals
    revert hfirst
    generalize m.handleSignal sig = outcome
    intro hfirst
    obtain ⟨m', error | events⟩ := outcome
    · rw [append_nil]
      exact hfirst
    · exact hfirst.append (ih m' _)

theorem books_handleData (m : Multiplexer) (pdu : L2capPdu) :
    Books m (m.handleDataLog pdu) (m.handleData pdu).1 := by
  unfold handleDataLog handleData
  cases m.channels pdu.cid.raw with
  | none => exact .idle (.refl m)
  | some ch =>
    cases hertm : m.ertm pdu.cid.raw with
    | none =>
      dsimp only
      split
      · exact .idle (.refl m)
      · exact .idle (.refl m)
    | some ertm =>
      dsimp only
      split
      · exact .idle (.refl m)
      · cases ertm.receive pdu.payload with
        | error e => exact .idle (.refl m)
        | ok received =>
          have hset : Carries m (m.setErtm pdu.cid.raw received.1) := .of_eq rfl rfl rfl
          dsimp only
          split
          · exact (books_failChannel _ _).carried hset
          · exact .idle hset

/-! ### Calls -/

theorem books_connectWith (m : Multiplexer) (psm : Psm) (mode : ChannelMode) :
    Books m (m.connectWithLog psm) (m.connectWith psm mode).1 := by
  unfold connectWithLog connectWith
  have hcid := carries_allocCid m
  generalize m.allocCid = allocated at hcid ⊢
  obtain ⟨m₁, full | localCid⟩ := allocated
  · exact .idle hcid
  · rw [andThen_ok]
    dsimp only
    rw [signal_connectionRequest, andThen_ok]
    have hpending : Takes m₁ (some (.connectionRequest m₁.nextId psm localCid))
        ((m₁.allocId.setChannel localCid.raw
          (.dialled localCid psm (m₁.allocId.modeMtu mode) mode)).setPending m₁.nextId
            localCid.raw) := by
      refine ⟨rfl, fun _ out hout => .inl ⟨out, hout, rfl⟩, ?_⟩
      intro id raw hraw
      rw [setPending_pending] at hraw
      by_cases hid : id = m₁.nextId
      · rw [hid, update_self] at hraw
        cases hraw
        exact .inr ⟨hid, psm, by rw [hid]⟩
      · rw [update_of_ne hid] at hraw
        exact .inl ⟨hraw, fun heq => absurd heq hid⟩
    exact .one hcid (hpending.awaiting localCid.raw)

theorem books_send (m : Multiplexer) (cid : Cid) (payload : Bytes) :
    Books m (m.sendLog cid payload) (m.send cid payload).1 := by
  unfold sendLog send
  cases m.channels cid.raw with
  | none => exact .idle (.refl m)
  | some ch =>
    cases hertm : m.ertm cid.raw with
    | none =>
      dsimp only
      split
      · exact .idle (.refl m)
      · split
        · exact .idle (.refl m)
        · exact .idle (.refl m)
    | some ertm =>
      dsimp only
      by_cases hstate : ch.state ≠ .open_
      · rw [if_pos (.inl hstate), if_pos hstate]
        exact .idle (.refl m)
      · rw [if_neg hstate]
        by_cases hlong : payload.length > ch.remoteMtu.toNat
        · rw [if_pos (.inr hlong), if_pos hlong]
          exact .idle (.refl m)
        · rw [if_neg (not_or.mpr ⟨hstate, hlong⟩), if_neg hlong]
          cases ertm.send payload with
          | error e => exact .idle (.refl m)
          | ok sent =>
            have hset : Carries m (m.setErtm cid.raw sent.1) := .of_eq rfl rfl rfl
            dsimp only
            split
            · exact (books_failChannel _ _).carried hset
            · exact .idle hset

theorem books_disconnect (m : Multiplexer) (cid : Cid) :
    Books m (m.disconnectLog cid) (m.disconnect cid).1 := by
  unfold disconnectLog
  cases hch : m.channels cid.raw with
  | none =>
    rw [disconnect_none hch]
    refine .one (.refl m) (takes_allocId ?_)
    intro sent hsent
    cases hsent
  | some ch =>
    rw [disconnect_some hch]
    let leaving := ((m.setChannel cid.raw { ch with state := .waitDisconnect }).removeErtm
      cid.raw).retireTimers cid.raw
    have hleaving : Carries m leaving :=
      (carries_retireTimers m cid.raw).trans (.of_eq rfl rfl rfl)
    have halloc : Takes leaving
        (some (.disconnectionRequest m.nextId ch.remoteCid ch.localCid)) leaving.allocId :=
      takes_allocId fun sent hsent => by cases hsent; rfl
    exact .one hleaving (halloc.awaiting cid.raw)

theorem books_failEach (cids : List Cid) (m : Multiplexer) (events : List L2capEvent) :
    Books m (failEachLog cids m) (failEach cids m events).1 := by
  induction cids generalizing m events with
  | nil => exact .idle (.refl m)
  | cons cid rest ih => exact (books_failChannel m cid).append (ih _ _)

theorem carries_passTime (m : Multiplexer) (elapsed : ℕ) : Carries m (m.passTime elapsed) := by
  refine ⟨rfl, ?_, fun _ _ hraw => hraw⟩
  intro id out hout
  rw [passTime_outstanding] at hout
  obtain ⟨old, hold, rfl⟩ := Option.map_eq_some_iff.mp hout
  exact ⟨old, hold, rfl⟩

theorem carries_expire (m : Multiplexer) (ticking : Ticking) (id : UInt8) :
    Carries m (m.expire ticking id).1 := by
  unfold expire
  cases hout : m.outstanding id with
  | none => exact .refl m
  | some out =>
    dsimp only
    split
    · exact carries_setOutstanding (.refl m) hout rfl
    · exact (carries_removeOutstanding m id).trans (carries_removePending _ id)

theorem carries_tickErtm (m : Multiplexer) (elapsed : ℕ) (ticking : Ticking) (raw : UInt16) :
    Carries m (m.tickErtm elapsed ticking raw).1 := by
  unfold tickErtm
  split
  · exact .refl m
  · dsimp only
    split
    · exact .of_eq rfl rfl rfl
    · exact .of_eq rfl rfl rfl

/-- What every round of a loop over a table leaves alone, the loop does. -/
theorem carries_foldl {κ : Type} (round : Multiplexer × Ticking → κ → Multiplexer × Ticking)
    (hround : ∀ acc k, Carries acc.1 (round acc k).1) (keys : List κ)
    (acc : Multiplexer × Ticking) : Carries acc.1 (keys.foldl round acc).1 := by
  induction keys generalizing acc with
  | nil => exact .refl acc.1
  | cons k keys ih => exact (hround acc k).trans (ih (round acc k))

theorem books_tick (m : Multiplexer) (ids : List UInt8) (raws : List UInt16) (elapsed : ℕ) :
    Books m (m.tickLog ids raws elapsed) (m.tick ids raws elapsed).1 := by
  refine (books_failEach _ _ _).carried ?_
  refine (carries_passTime m elapsed).trans ?_
  have hexpired := carries_foldl (fun acc id => expire acc.1 acc.2 id)
    (fun acc id => carries_expire acc.1 acc.2 id) (ids.filter (m.passTime elapsed).hasExpired)
    (m.passTime elapsed, {})
  exact hexpired.trans (carries_foldl (fun acc raw => tickErtm elapsed acc.1 acc.2 raw)
    (fun acc raw => carries_tickErtm acc.1 elapsed acc.2 raw) raws _)

/-- The entries of a call lead from the state before it to the state after it.
-/
theorem books_perform (m : Multiplexer) (call : Call) :
    Books m (m.callLog call) (m.perform call).1 := by
  cases call with
  | listenWith psm mode =>
    refine .idle ?_
    change Carries m (m.listenWith psm mode)
    unfold listenWith
    split
    · exact .of_eq rfl rfl rfl
    · exact .of_eq rfl rfl rfl
  | connectWith psm mode => exact books_connectWith m psm mode
  | send cid payload => exact books_send m cid payload
  | disconnect cid => exact books_disconnect m cid
  | linkDown order =>
    refine .idle ⟨rfl, ?_, ?_⟩
    · intro id out hout
      cases hout
    · intro id raw hraw
      cases hraw
  | tick ids raws elapsed => exact books_tick m ids raws elapsed
  | handlePdu pdu =>
    simp only [callLog, perform, handlePdu]
    split
    · rw [rejectAll_eq, andThen_ok]
      exact books_handleSignals _ m _
    · exact books_handleData m pdu

theorem books_run (calls : List Call) (m : Multiplexer) : Books m (log calls m) (m.run calls) := by
  induction calls generalizing m with
  | nil => exact .idle (.refl m)
  | cons call rest ih => exact (books_perform m call).append (ih _)

end Multiplexer

variable {m m₁ m' : Multiplexer} {entry : Entry} {before after entries : List Entry}

/-! ## Counting identifiers -/

/-- The identifier that comes after `n` others. -/
def idAt (n : ℕ) : UInt8 := .ofNat (n % 255 + 1)

theorem toNat_idAt (n : ℕ) : (idAt n).toNat = n % 255 + 1 := by
  have hlt : n % 255 < 255 := Nat.mod_lt n (by decide)
  unfold idAt
  rw [UInt8.toNat_ofNat']
  exact Nat.mod_eq_of_lt (by omega)

theorem idAt_eq_idAt {a b : ℕ} : idAt a = idAt b ↔ a % 255 = b % 255 := by
  rw [← UInt8.toNat_inj, toNat_idAt, toNat_idAt]
  omega

theorem nextId_allocId {n : ℕ} (h : m.nextId = idAt n) : m.allocId.nextId = idAt (n + 1) := by
  have hlt : n % 255 < 255 := Nat.mod_lt n (by decide)
  rw [allocId_nextId, h]
  by_cases hlast : idAt n = 255
  · have hmod : n % 255 + 1 = 255 := by rw [← toNat_idAt, hlast]; rfl
    have hnext : (1 : UInt8) = idAt 0 := rfl
    rw [if_pos hlast, hnext, idAt_eq_idAt]
    omega
  · have hmod : n % 255 + 1 ≠ 255 := by
      intro heq
      exact hlast (UInt8.toNat_inj.mp ((toNat_idAt n).trans heq))
    rw [if_neg hlast, ← UInt8.toNat_inj, UInt8.toNat_add, toNat_idAt, toNat_idAt]
    change (n % 255 + 1 + 1) % 256 = (n + 1) % 255 + 1
    omega

theorem idsTaken_append : idsTaken (before ++ after) = idsTaken before + idsTaken after :=
  countP_append

@[simp] theorem idsTaken_cons_taken {request : Option Signal} :
    idsTaken (.taken m request :: entries) = idsTaken entries + 1 := by
  simp [idsTaken]

@[simp] theorem idsTaken_cons_command {sig : Signal} :
    idsTaken (.command m sig :: entries) = idsTaken entries := by
  simp [idsTaken]

/-- The counter says how many identifiers were taken. -/
theorem Multiplexer.Books.nextId {n : ℕ} (h : Books m entries m') (hm : m.nextId = idAt n) :
    m'.nextId = idAt (n + idsTaken entries) := by
  induction h generalizing n with
  | idle hcarries => exact hcarries.nextId.trans hm
  | taken hcarries htakes _ ih =>
    have hnext := ih (htakes.nextId.trans (nextId_allocId (hcarries.nextId.trans hm)))
    rw [hnext, idsTaken_cons_taken]
    exact congrArg idAt (by omega)
  | command hcarries _ ih =>
    rw [idsTaken_cons_command]
    exact ih (hcarries.nextId.trans hm)

def Entry.state : Entry → Multiplexer
  | .taken m _ => m
  | .command m _ => m

/-- The entries before one of them lead to the multiplexer it notes. -/
theorem Multiplexer.Books.split (h : Books m (before ++ entry :: after) m') :
    ∃ m₁, Books m before m₁ ∧ Carries m₁ entry.state := by
  induction before generalizing m with
  | nil =>
    cases h with
    | taken hcarries | command hcarries => exact ⟨m, .idle (.refl m), hcarries⟩
  | cons first before ih =>
    cases h with
    | taken hcarries htakes hrest =>
      obtain ⟨m₁, hbefore, hentry⟩ := ih hrest
      exact ⟨m₁, .taken hcarries htakes hbefore, hentry⟩
    | command hcarries hrest =>
      obtain ⟨m₁, hbefore, hentry⟩ := ih hrest
      exact ⟨m₁, .command hcarries hbefore, hentry⟩

/-! ## The last request under an identifier -/

variable {kind : Signal → Bool} {id : UInt8} {request : Option Signal} {sent : Signal}

theorem lastUnder_concat : lastUnder kind id (entries ++ [entry]) =
      (entry.sends kind id).or (lastUnder kind id entries) := by
  unfold lastUnder
  rw [filterMap_append]
  cases hsends : entry.sends kind id with
  | none | some request => simp [hsends]

theorem sends_other (hid : m.nextId ≠ id) : (Entry.taken m request).sends kind id = none := by
  cases request with
  | none => rfl
  | some request => simp [Entry.sends, hid]

theorem sends_self (hkind : kind sent = true) :
    (Entry.taken m (some sent)).sends kind m.nextId = some sent := by
  simp [Entry.sends, hkind]

theorem exists_of_lastUnder (h : lastUnder kind id entries = some sent) :
    ∃ before m after, entries = before ++ .taken m (some sent) :: after ∧ m.nextId = id := by
  have hmem : sent ∈ entries.filterMap (Entry.sends kind id) := mem_of_getLast? h
  obtain ⟨entry, hentry, hsends⟩ := mem_filterMap.mp hmem
  obtain ⟨before, after, rfl⟩ := append_of_mem hentry
  cases entry with
  | command => cases hsends
  | taken m request =>
    cases request with
    | none => cases hsends
    | some request =>
      simp only [Entry.sends] at hsends
      split at hsends
      next hid =>
        cases hsends
        exact ⟨before, m, after, rfl, hid.1⟩
      next => cases hsends

/-! ## What the log says of the records -/

/-- What holds of the multiplexer a log leads to. -/
structure Kept (entries : List Entry) (m : Multiplexer) : Prop where
  recorded : ∀ id out, m.outstanding id = some out →
    lastUnder (fun _ => true) id entries = some out.request
  dialled : ∀ id raw, m.pending id = some raw →
    ∃ psm, lastUnder Signal.isDial id entries = some (.connectionRequest id psm ⟨raw⟩)

theorem kept_new (localMtu : UInt16) : Kept [] (new localMtu) where
  recorded := fun _ _ hout => by cases hout
  dialled := fun _ _ hraw => by cases hraw

theorem Kept.carries (h : Kept entries m) (hcarries : Carries m m') : Kept entries m' where
  recorded := by
    intro id out hout
    obtain ⟨old, hold, hsame⟩ := hcarries.outstanding id out hout
    rw [← hsame]
    exact h.recorded id old hold
  dialled := fun id raw hraw => h.dialled id raw (hcarries.pending id raw hraw)

theorem Kept.command (h : Kept entries m) (m₁ : Multiplexer) (sig : Signal) :
    Kept (entries ++ [.command m₁ sig]) m where
  recorded := by
    intro id out hout
    rw [lastUnder_concat]
    exact h.recorded id out hout
  dialled := by
    intro id raw hraw
    rw [lastUnder_concat]
    exact h.dialled id raw hraw

/-- A request that goes out under an identifier of its own becomes the last one
under it. -/
theorem Kept.taken (h : Kept entries m) (hfresh : request.isSome = true → m.Fresh)
    (htakes : Takes m request m') : Kept (entries ++ [.taken m request]) m' where
  recorded := by
    intro id out hout
    rw [lastUnder_concat]
    rcases htakes.outstanding id out hout with ⟨old, hold, hsame⟩ | ⟨rfl, rfl⟩
    · have hnone : (Entry.taken m request).sends (fun _ => true) id = none := by
        cases request with
        | none => rfl
        | some sent =>
          refine sends_other fun hid => ?_
          have hfree := (hfresh rfl).1
          rw [hid, hold] at hfree
          cases hfree
      rw [hnone, ← hsame]
      exact h.recorded id old hold
    · rw [sends_self rfl]
      rfl
  dialled := by
    intro id raw hraw
    rw [lastUnder_concat]
    rcases htakes.pending id raw hraw with ⟨hold, hother⟩ | ⟨rfl, psm, rfl⟩
    · have hnone : (Entry.taken m request).sends Signal.isDial id = none := by
        cases request with
        | none => rfl
        | some sent =>
          by_cases hid : id = m.nextId
          · simp [Entry.sends, hother hid sent rfl]
          · exact sends_other (Ne.symm hid)
      rw [hnone]
      exact h.dialled id raw hold
    · exact ⟨psm, by rw [sends_self rfl]; rfl⟩

/-- An entry that sends a request does so under an identifier of its own. -/
def Entry.OwnId : Entry → Prop
  | .taken m request => request.isSome = true → m.Fresh
  | .command .. => True

theorem Kept.books (h : Kept before m) (hbooks : Books m entries m')
    (hown : ∀ entry ∈ entries, entry.OwnId) : Kept (before ++ entries) m' := by
  induction hbooks generalizing before with
  | idle hcarries =>
    rw [append_nil]
    exact h.carries hcarries
  | taken hcarries htakes _ ih =>
    obtain ⟨hfirst, hrest⟩ := forall_mem_cons.mp hown
    have hnext := ih ((h.carries hcarries).taken hfirst htakes) hrest
    rwa [append_assoc] at hnext
  | @command _ m₁ _ sig _ hcarries _ ih =>
    obtain ⟨-, hrest⟩ := forall_mem_cons.mp hown
    have hnext := ih ((h.carries hcarries).command m₁ sig) hrest
    rwa [append_assoc] at hnext

/-! ## The headline result -/

/-- The identifiers of two entries are the same exactly when a multiple of 255
was taken from the one to the other. -/
theorem nextId_eq_iff {start m₀ : Multiplexer} {between : List Entry}
    (hbooks : Books start (before ++ .taken m₀ request :: between ++ entry :: after) m')
    (hstart : start.nextId = idAt 0) :
    m₀.nextId = entry.state.nextId ↔ 255 ∣ idsTaken between + 1 := by
  obtain ⟨m₂, hentry, hcarries⟩ := hbooks.split
  obtain ⟨m₁, hfirst, hcarries₀⟩ := hentry.split
  have hid₀ : m₀.nextId = idAt (0 + idsTaken before) :=
    hcarries₀.nextId.trans (hfirst.nextId hstart)
  have hid : entry.state.nextId = idAt (0 + idsTaken (before ++ .taken m₀ request :: between)) :=
    hcarries.nextId.trans (hentry.nextId hstart)
  rw [hid₀, hid, idsTaken_append, idsTaken_cons_taken, idAt_eq_idAt]
  omega

theorem offCycle_of_lastUnder {start : Multiplexer}
    (hbooks : Books start (before ++ entry :: after) m')
    (hstart : start.nextId = idAt 0) (hsent : lastUnder kind id before = some sent)
    (hother : id ≠ entry.state.nextId) : SentOffCycle id sent before := by
  obtain ⟨earlier, m₀, between, rfl, hid⟩ := exists_of_lastUnder hsent
  refine ⟨earlier, m₀, between, rfl, hid, fun hcycle => hother ?_⟩
  rw [← hid]
  exact (nextId_eq_iff hbooks hstart).mpr hcycle

theorem ne_of_offCycle {start : Multiplexer} (hbooks : Books start (before ++ entry :: after) m')
    (hstart : start.nextId = idAt 0) (hsent : SentOffCycle id sent before) :
    id ≠ entry.state.nextId := by
  obtain ⟨earlier, m₀, between, rfl, rfl, hoff⟩ := hsent
  exact fun hid => hoff ((nextId_eq_iff hbooks hstart).mp hid)

/-- **Requests never share an identifier**, in the log of a whole run, exactly
when no request is sent a multiple of 255 identifiers after one that is still
unanswered. -/
theorem identified_iff_timely (localMtu : UInt16) (calls : List Call) :
    Throughout Entry.Identified (log calls (new localMtu)) ↔
      Throughout Entry.Timely (log calls (new localMtu)) := by
  have hbooks := books_run calls (new localMtu)
  have hstart : (new localMtu).nextId = idAt 0 := rfl
  constructor
  · intro hidentified before entry after hlog
    rw [hlog] at hbooks
    have hown : ∀ earlier ∈ before, earlier.OwnId := by
      intro earlier hmem
      obtain ⟨front, back, rfl⟩ := append_of_mem hmem
      have hat := hidentified front earlier (back ++ entry :: after) (by simpa using hlog)
      cases earlier with
      | taken => exact hat
      | command => trivial
    obtain ⟨m₁, hreached, hcarries⟩ := hbooks.split
    have hkept := ((kept_new localMtu).books hreached hown).carries hcarries
    cases entry with
    | command => trivial
    | taken m request =>
      intro hrequest
      have hfresh : m.Fresh := hidentified before _ after hlog hrequest
      constructor
      · intro id out hout
        refine offCycle_of_lastUnder hbooks hstart (hkept.recorded id out hout) ?_
        rintro rfl
        exact absurd (hfresh.1.symm.trans hout) (by simp)
      · intro id raw hraw hlive
        obtain ⟨psm, hdialled⟩ := hkept.dialled id raw hraw
        refine ⟨psm, offCycle_of_lastUnder hbooks hstart hdialled ?_⟩
        rintro rfl
        rw [hfresh.2 raw hraw] at hlive
        cases hlive
  · intro htimely
    have hown : ∀ entry ∈ log calls (new localMtu), entry.OwnId := by
      intro entry hmem
      obtain ⟨before, after, hlog⟩ := append_of_mem hmem
      have hat := htimely before entry after hlog
      rw [hlog] at hbooks
      cases entry with
      | command => trivial
      | taken m request =>
        intro hrequest
        obtain ⟨hrecorded, hdialled⟩ := hat hrequest
        constructor
        · by_contra hused
          obtain ⟨out, hout⟩ := Option.ne_none_iff_exists'.mp hused
          exact ne_of_offCycle hbooks hstart (hrecorded _ out hout) rfl
        · intro raw hraw
          by_contra hlive
          obtain ⟨psm, hsent⟩ := hdialled _ raw hraw (Option.isSome_iff_ne_none.mpr hlive)
          exact ne_of_offCycle hbooks hstart hsent rfl
    intro before entry after hlog
    have hreached := hbooks
    rw [hlog] at hreached hown
    obtain ⟨m₁, hreached, hcarries⟩ := hreached.split
    have hkept := ((kept_new localMtu).books hreached fun earlier hmem =>
      hown earlier (mem_append_left _ hmem)).carries hcarries
    cases entry with
    | taken m request => exact hown (.taken m request) (by simp)
    | command m sig =>
      intro id _
      exact ⟨hkept.recorded id, hkept.dialled id⟩

theorem log_concat (calls : List Call) (call : Call) (m : Multiplexer) :
    log (calls ++ [call]) m = log calls m ++ (m.run calls).callLog call := by
  induction calls generalizing m with
  | nil => simp [log, run]
  | cons first rest ih =>
    rw [cons_append, log, ih, log, append_assoc]
    rfl

theorem connectWithLog_of_free {psm : Psm} {localCid : Cid} (h : m.allocCid.2 = .ok localCid) :
    m.connectWithLog psm =
      [.taken m.allocCid.1 (some (.connectionRequest m.allocCid.1.nextId psm localCid))] := by
  unfold connectWithLog
  generalize m.allocCid = allocated at h ⊢
  obtain ⟨m₁, found⟩ := allocated
  obtain rfl : found = .ok localCid := h
  rfl

theorem allocCid_of_free (hfree : m.channels m.nextCid = none) :
    m.allocCid = ({ m with
      nextCid := if m.nextCid = 65535 then Cid.dynamicStart else m.nextCid + 1 },
      .ok ⟨m.nextCid⟩) := by
  have htries : 65535 - Cid.dynamicStart.toNat = 65470 + 1 := rfl
  unfold allocCid
  dsimp only
  rw [htries, findCid, if_pos hfree]

def dials (n : ℕ) : List Call := List.replicate n (.connectWith .avdtp .basic)

/-- What `n` unanswered connection requests leave. -/
structure Dialled (n : ℕ) (m : Multiplexer) : Prop where
  nextId : m.nextId = idAt n
  nextCid : m.nextCid.toNat = Cid.dynamicStart.toNat + n
  free : ∀ raw, m.nextCid.toNat ≤ raw.toNat → m.channels raw = none
  first : 0 < n → (m.outstanding 1).isSome = true

theorem Dialled.next {n : ℕ} (h : Dialled n m) (hn : n < 255) :
    Dialled (n + 1) (m.perform (.connectWith .avdtp .basic)).1 := by
  have hfree := h.free m.nextCid (Nat.le_refl _)
  have hcid := h.nextCid
  rw [show Cid.dynamicStart.toNat = 64 from rfl] at hcid
  have hlast : m.nextCid ≠ 65535 := by
    intro hlast
    rw [hlast, show (65535 : UInt16).toNat = 65535 from rfl] at hcid
    omega
  have hstep : (m.nextCid + 1).toNat = m.nextCid.toNat + 1 := by
    rw [UInt16.toNat_add, show (1 : UInt16).toNat = 1 from rfl]
    omega
  simp only [perform, connectWith, allocCid_of_free hfree, andThen_ok, signal_connectionRequest,
    if_neg hlast]
  refine ⟨nextId_allocId h.nextId, ?_, ?_, ?_⟩
  · change (m.nextCid + 1).toNat = _
    rw [hstep, h.nextCid, Nat.add_assoc]
  · intro raw hraw
    change (m.nextCid + 1).toNat ≤ raw.toNat at hraw
    have hother : raw ≠ m.nextCid := by
      rintro rfl
      omega
    change update m.channels m.nextCid _ raw = none
    rw [update_of_ne hother]
    exact h.free raw (by omega)
  · intro _
    change (update m.outstanding m.nextId _ 1).isSome = true
    by_cases hid : 1 = m.nextId
    · rw [← hid, update_self]
      rfl
    · rw [update_of_ne hid]
      refine h.first (Nat.pos_of_ne_zero fun hzero => hid ?_)
      rw [h.nextId, hzero]
      rfl

theorem dialled_dials {n : ℕ} (hn : n ≤ 255) : Dialled n ((new 672).run (dials n)) := by
  induction n with
  | zero => exact ⟨rfl, rfl, fun _ _ => rfl, fun h => absurd h (Nat.lt_irrefl 0)⟩
  | succ n ih =>
    unfold dials run
    rw [replicate_succ', foldl_concat]
    exact (ih (Nat.le_of_succ_le hn)).next hn

/-- After as many of them as there are identifiers, the next one goes out under
the identifier of the first, and takes its record. -/
theorem identified_shared : ¬ Throughout Entry.Identified (log (dials 256) (new 672)) := by
  intro h
  have hdialled := dialled_dials (Nat.le_refl 255)
  have hdials : dials 256 = dials 255 ++ [.connectWith .avdtp .basic] := replicate_succ'
  have hlog : log (dials 256) (new 672) =
      log (dials 255) (new 672) ++ ((new 672).run (dials 255)).connectWithLog .avdtp := by
    rw [hdials, log_concat]
    rfl
  generalize (new 672).run (dials 255) = m at hdialled hlog
  have hcid := allocCid_of_free (hdialled.free m.nextCid (Nat.le_refl _))
  rw [connectWithLog_of_free (congrArg Prod.snd hcid)] at hlog
  have hfresh := h _ _ _ hlog rfl
  have hfree : m.outstanding m.nextId = none := hfresh.1
  have hid : m.nextId = 1 := hdialled.nextId
  have hrecord := hdialled.first (by decide)
  rw [← hid, hfree] at hrecord
  cases hrecord

end Castaway.L2cap
