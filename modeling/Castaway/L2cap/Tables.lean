import Castaway.L2cap.Calls

/-!
# The channel table and the engine table

`channels` and `ertm` are two maps over the same keys, and about ten paths
update them.  They agree when an engine exists exactly for the open channels in
Enhanced Retransmission Mode, and frames what it sends as the channel says.

## Strategy

`AgreesAt` states this for one key, so that a method which touches one channel
is checked at that key alone (`Tables.update`).  Each method has a lemma that it
keeps `Tables`.  Four answers and requests of the peer break the agreement;
`keepsTables` is the condition on the state before a command that rules out
exactly these, and **the headline result** `tables_run` is about the runs whose
commands all meet it.
-/

namespace Castaway.L2cap

open Function

/-! ## Agreement at one key -/

def Channel.runsErtm (ch : Channel) : Bool :=
  ch.state = .open_ && ch.mode = .enhancedRetransmission

theorem Channel.runsErtm_iff (ch : Channel) :
    ch.runsErtm = true ↔ ch.state = .open_ ∧ ch.mode = .enhancedRetransmission := by
  simp [runsErtm]

/-- The engine frames what it sends as the channel says. -/
structure Channel.FramedBy (ch : Channel) (ertm : Ertm) : Prop where
  remoteCid : ertm.params.remoteCid = ch.remoteCid
  fcs : ertm.params.fcs = ch.parameters.fcs
  sendMps : ertm.params.sendMps = ch.parameters.sendMps

/-- The two tables agree at `raw`. -/
inductive AgreesAt (raw : UInt16) : Option Channel → Option Ertm → Prop
  | free : AgreesAt raw none none
  | plain {ch : Channel} (hcid : ch.localCid.raw = raw) (hruns : ch.runsErtm = false) :
      AgreesAt raw (some ch) none
  | engine {ch : Channel} {ertm : Ertm} (hcid : ch.localCid.raw = raw)
      (hruns : ch.runsErtm = true) (hframed : ch.FramedBy ertm) : AgreesAt raw (some ch) (some ertm)

theorem AgreesAt.localCid {raw : UInt16} {ch : Channel} {ertm? : Option Ertm}
    (h : AgreesAt raw (some ch) ertm?) : ch.localCid.raw = raw := by
  cases h with
  | plain hcid | engine hcid => exact hcid

/-- Only the fields that `AgreesAt` reads matter. -/
theorem AgreesAt.congr {raw : UInt16} {ch ch' : Channel} {ertm? : Option Ertm}
    (h : AgreesAt raw (some ch) ertm?) (hcid : ch'.localCid = ch.localCid)
    (hruns : ch'.runsErtm = ch.runsErtm)
    (hframed : ch.runsErtm = true → ch'.remoteCid = ch.remoteCid ∧
      ch'.parameters.fcs = ch.parameters.fcs ∧ ch'.parameters.sendMps = ch.parameters.sendMps) :
    AgreesAt raw (some ch') ertm? := by
  cases h with
  | plain hraw hplain => exact .plain (hcid ▸ hraw) (hruns.trans hplain)
  | engine hraw hertm hold =>
    obtain ⟨hremote, hfcs, hmps⟩ := hframed hertm
    exact .engine (hcid ▸ hraw) (hruns.trans hertm)
      ⟨hold.remoteCid.trans hremote.symm, hold.fcs.trans hfcs.symm, hold.sendMps.trans hmps.symm⟩

namespace Multiplexer

def Tables (m : Multiplexer) : Prop := ∀ raw, AgreesAt raw (m.channels raw) (m.ertm raw)

/-- What the agreement is for: an engine exists exactly for an open channel in
Enhanced Retransmission Mode, and is that channel's. -/
def Consistent (m : Multiplexer) : Prop :=
  (∀ raw, (m.ertm raw).isSome = true ↔ ∃ ch, m.channels raw = some ch ∧ ch.state = .open_ ∧
    ch.mode = .enhancedRetransmission) ∧
  ∀ raw ch ertm, m.channels raw = some ch → m.ertm raw = some ertm →
    ertm.params.remoteCid = ch.remoteCid ∧ ertm.params.fcs = ch.parameters.fcs ∧
    ertm.params.sendMps = ch.parameters.sendMps

theorem Tables.consistent {m : Multiplexer} (h : m.Tables) : m.Consistent := by
  refine ⟨fun raw => ?_, fun raw ch ertm hch hertm => ?_⟩
  · have hat := h raw
    generalize m.channels raw = ch? at hat ⊢
    generalize m.ertm raw = ertm? at hat ⊢
    cases hat with
    | free => simp
    | plain hcid hruns | engine hcid hruns hframed => simpa [Channel.runsErtm] using hruns
  · have hat := h raw
    rw [hch, hertm] at hat
    cases hat with
    | engine hcid hruns hframed => exact ⟨hframed.remoteCid, hframed.fcs, hframed.sendMps⟩

variable {m m' : Multiplexer} {raw : UInt16} {ch : Channel} {options : List ConfigOption}

theorem tables_new (localMtu : UInt16) : (new localMtu).Tables := fun _ => .free

theorem Tables.congr (h : m.Tables) (hchannels : m'.channels = m.channels)
    (hertm : m'.ertm = m.ertm) : m'.Tables := fun raw => by
  rw [hchannels, hertm]
  exact h raw

/-- A method that touches one key of the two tables. -/
theorem Tables.update (h : m.Tables) {ch? : Option Channel} {ertm? : Option Ertm}
    (hchannels : m'.channels = Function.update m.channels raw ch?)
    (hertm : m'.ertm = Function.update m.ertm raw ertm?) (hat : AgreesAt raw ch? ertm?) :
    m'.Tables := fun k => by
  rw [hchannels, hertm]
  by_cases hk : k = raw
  · subst hk
    simpa only [update_self] using hat
  · simpa only [update_of_ne hk] using h k

/-- A method that touches one key of the channel table. -/
theorem Tables.updateChannel (h : m.Tables)
    (hchannels : m'.channels = Function.update m.channels raw (some ch)) (hertm : m'.ertm = m.ertm)
    (hat : AgreesAt raw (some ch) (m.ertm raw)) : m'.Tables :=
  h.update hchannels (hertm.trans (update_eq_self raw m.ertm).symm) hat

theorem Tables.setChannel (h : m.Tables) (hat : AgreesAt raw (some ch) (m.ertm raw)) :
    (m.setChannel raw ch).Tables := h.updateChannel rfl rfl hat

/-! ## The shared methods -/

section

variable (h : m.Tables)
include h

theorem Tables.forget (raw : UInt16) : (m.forget raw).Tables :=
  h.update rfl rfl .free

theorem Tables.removeErtm_of_none (hch : m.channels raw = none) :
    ((m.removeErtm raw).retireTimers raw).Tables := by
  have hchannels : m.channels = Function.update m.channels raw none := by
    rw [← hch, update_eq_self]
  exact h.update hchannels rfl .free

theorem Tables.failChannel (cid : Cid) : (m.failChannel cid).1.Tables := by
  cases hch : m.channels cid.raw with
  | none =>
    rw [failChannel_none hch]
    exact h.removeErtm_of_none hch
  | some ch =>
    rw [failChannel_some hch]
    exact (h.forget cid.raw).congr rfl rfl

theorem Tables.failConfiguration {cid : Cid} (hch : m.channels cid.raw = some ch) :
    (m.failConfiguration cid).1.Tables := by
  rw [failConfiguration_some hch]
  exact (h.forget cid.raw).congr rfl rfl

theorem Tables.closeChannel (raw : UInt16) : (m.closeChannel raw).1.Tables := by
  cases hch : m.channels raw with
  | none =>
    rw [closeChannel_none hch]
    exact h.removeErtm_of_none hch
  | some ch =>
    rw [closeChannel_some hch]
    exact h.forget raw

theorem Tables.ertm_of_free (hfree : m.channels raw = none) : m.ertm raw = none := by
  have hat := h raw
  rw [hfree] at hat
  generalize m.ertm raw = ertm? at hat ⊢
  cases hat
  rfl

section

variable (hch : m.channels raw = some ch)
include hch

/-- A channel that is not open in Enhanced Retransmission Mode has no engine. -/
theorem Tables.ertm_eq_none (hruns : ch.runsErtm = false) : m.ertm raw = none := by
  have hat := h raw
  rw [hch] at hat
  generalize m.ertm raw = ertm? at hat ⊢
  cases hat with
  | plain => rfl
  | engine hcid hertm => cases hruns.symm.trans hertm

theorem Tables.localCid :
    ch.localCid.raw = raw := by
  have hat := h raw
  rw [hch] at hat
  exact hat.localCid

theorem Tables.opened (hstate : ch.state ≠ .open_) : (m.opened raw ch).Tables := by
  have hnone : m.ertm raw = none := h.ertm_eq_none hch (by simp [Channel.runsErtm, hstate])
  unfold Multiplexer.opened
  dsimp only
  split
  next hmode =>
    have hcid := h.localCid hch
    exact h.update rfl rfl (.engine hcid (by simp [Channel.runsErtm, hmode]) ⟨rfl, rfl, rfl⟩)
  next hmode =>
    have hcid := h.localCid hch
    refine h.updateChannel rfl rfl ?_
    rw [hnone]
    exact .plain hcid (by simp [Channel.runsErtm, hmode])

theorem Tables.promotion {m₂ : Multiplexer}
    {ch₂ : Channel} {events : List L2capEvent} (hpromotion : Promotion m raw ch m₂ ch₂ events) :
    m₂.Tables := by
  cases hpromotion with
  | waiting => exact h
  | opened hready => exact h.opened hch (by simp [hready])

theorem Tables.proposed :
    (m.proposed raw ch).Tables := by
  have hat : AgreesAt raw (some ch) (m.ertm raw) := hch ▸ h raw
  exact h.updateChannel rfl rfl (hat.congr rfl rfl fun _ => ⟨rfl, rfl, rfl⟩)

end

end

/-! ## The condition -/

/-- The peer's command leaves an open retransmission channel and its engine as
they are: no connection response resolves to such a channel, an accepted
configuration request keeps its checksum and its frame size, a counter-proposal
for an open channel keeps its mode, and a pending answer its checksum. -/
def keepsTables (m : Multiplexer) : Signal → Bool
  | .connectionResponse id _ sourceCid result _ =>
    result = .pending ||
      !(m.channels (m.responseChannel id sourceCid)).any Channel.runsErtm
  | .configurationRequest _ destCid _ options =>
    (m.channels destCid.raw).all fun ch =>
      !ch.runsErtm || (ch.refusal m.receiveMps options).isSome ||
        ((lastOf ConfigOption.fcs? options).all (· = ch.parameters.fcs) &&
          max (min (proposalOf options).mps m.receiveMps) 1 = ch.parameters.sendMps)
  | .configurationResponse id sourceCid _ result options =>
    (m.channels sourceCid.raw).all fun ch =>
      ch.state ≠ .open_ || ch.isStale id ||
        match result with
        | .unacceptable =>
          ch.configAttempts ≥ maxConfigAttempts ||
            (Channel.counterMode options).all (· = ch.mode)
        | .pending =>
          ch.mode ≠ .enhancedRetransmission ||
            (lastOf ConfigOption.fcs? options).all (· = ch.parameters.fcs)
        | _ => true
  | _ => true

/-! ## Commands of the peer -/

theorem Tables.onConnectionRequest (h : m.Tables) (id : UInt8) (psm : Psm) (sourceCid : Cid) :
    (m.onConnectionRequest id psm sourceCid).1.Tables := by
  refine onConnectionRequest_cases (P := fun outcome => outcome.1.Tables) h
    (fun next => h.congr rfl rfl) (fun next localCid mode hfree => ?_)
  refine Tables.proposed ?_ (update_self ..)
  refine h.updateChannel rfl rfl ?_
  rw [h.ertm_of_free hfree]
  exact .plain rfl rfl

theorem Tables.onConnectionResponse (h : m.Tables) {id : UInt8} {destCid sourceCid : Cid}
    {result : ConnectionResult} (hkeeps : result = .pending ∨
      (m.channels (m.responseChannel id sourceCid)).any Channel.runsErtm = false) :
    (m.onConnectionResponse id destCid sourceCid result).1.Tables := by
  have hplain {ch : Channel} (hch : m.channels (m.responseChannel id sourceCid) = some ch)
      (hresult : result ≠ .pending) : ch.runsErtm = false := by
    simpa [hch] using hkeeps.resolve_left hresult
  refine onConnectionResponse_cases (P := fun outcome => outcome.1.Tables) (fun _ => h)
    (fun ch hch hpending hsuccess => ?_) (fun ch hch hsuccess => ?_)
  · have hertm : m.ertm = Function.update m.ertm (m.responseChannel id sourceCid) none := by
      rw [← h.ertm_eq_none hch (hplain hch hpending), update_eq_self]
    exact h.update rfl hertm .free
  · have hruns := hplain hch (by simp [hsuccess])
    have hcid := h.localCid hch
    refine Tables.proposed ?_ (update_self ..)
    refine h.updateChannel rfl rfl ?_
    rw [h.ertm_eq_none hch hruns]
    exact .plain hcid rfl

theorem Tables.setIncomingDone {ertm? : Option Ertm} (hat : AgreesAt raw (some ch) ertm?) :
    AgreesAt raw (some ch.setIncomingDone) ertm? := by
  unfold Channel.setIncomingDone
  split
  next hstate => exact hat.congr rfl (by simp [Channel.runsErtm, hstate]) fun _ => ⟨rfl, rfl, rfl⟩
  next => exact hat

theorem Tables.setOutgoingDone {ertm? : Option Ertm} (hat : AgreesAt raw (some ch) ertm?) :
    AgreesAt raw (some ch.setOutgoingDone) ertm? := by
  unfold Channel.setOutgoingDone
  split
  next hstate => exact hat.congr rfl (by simp [Channel.runsErtm, hstate]) fun _ => ⟨rfl, rfl, rfl⟩
  next => exact hat

/-- A channel that is open is settled, so accepting a request does not move its
mode. -/
theorem runsErtm_adopt {receiveMps basicMtu : UInt16}
    (haccepted : ch.refusal receiveMps options = none) :
    (ch.adopt basicMtu receiveMps options).runsErtm = ch.runsErtm := by
  rw [Channel.adopt_eq]
  unfold Channel.runsErtm
  by_cases hopen : ch.state = .open_
  · have hmode := Channel.mode_of_settled haccepted (by simp [Channel.settled, hopen])
    simp [hmode]
  · simp [hopen]

theorem Tables.adopt (h : m.Tables) (hch : m.channels raw = some ch)
    (haccepted : ch.refusal m.receiveMps options = none)
    (hkeeps : ch.runsErtm = true →
      (lastOf ConfigOption.fcs? options).all (· = ch.parameters.fcs) = true ∧
      max (min (proposalOf options).mps m.receiveMps) 1 = ch.parameters.sendMps) :
    AgreesAt raw (some (ch.adopt m.localMtu m.receiveMps options)) (m.ertm raw) := by
  have hat : AgreesAt raw (some ch) (m.ertm raw) := hch ▸ h raw
  refine hat.congr (by rw [Channel.adopt_eq]) (runsErtm_adopt haccepted) fun hruns => ?_
  obtain ⟨hfcs, hmps⟩ := hkeeps hruns
  rw [Channel.adopt_eq]
  refine ⟨rfl, ?_, ?_⟩
  · cases hlast : lastOf ConfigOption.fcs? options with
    | none => rfl
    | some fcs => simpa [hlast] using hfcs
  · dsimp only
    split
    · exact hmps
    · rfl

theorem Tables.onConfigRequest (h : m.Tables) {id : UInt8} {destCid : Cid} {flags : UInt16}
    (hkeeps : m.keepsTables (.configurationRequest id destCid flags options) = true) :
    (m.onConfigRequest id destCid flags options).1.Tables := by
  unfold Multiplexer.onConfigRequest
  cases hch : m.channels destCid.raw with
  | none => exact h
  | some ch =>
    dsimp only
    cases hrefusal : ch.refusal m.receiveMps options with
    | some refusal => exact h
    | none =>
      have hadopt := h.adopt hch hrefusal fun hruns => by
        simpa [keepsTables, hch, hruns, hrefusal] using hkeeps
      have hcontinued := h.setChannel hadopt
      have hset := h.setChannel (Tables.setIncomingDone hadopt)
      refine acceptConfigRequest_cases (P := fun outcome => outcome.1.Tables)
        (fun _ => hcontinued) (fun m₂ ch₂ events _ hpromotion _ => ?_)
        (fun m₂ ch₂ events _ hpromotion hch₂ _ _ => ?_)
        (fun m₂ ch₂ events _ hpromotion hch₂ _ _ => ?_)
      · exact hset.promotion (update_self ..) hpromotion
      · exact (hset.promotion (update_self ..) hpromotion).failConfiguration hch₂
      · exact (hset.promotion (update_self ..) hpromotion).proposed hch₂

theorem Tables.onConfigResponse (h : m.Tables) {id : UInt8} {sourceCid : Cid} {flags : UInt16}
    {result : ConfigResult} (retired : Option Outstanding)
    (hkeeps : m.keepsTables (.configurationResponse id sourceCid flags result options) = true) :
    (m.onConfigResponse id sourceCid result options retired).1.Tables := by
  have hat {ch : Channel} (hch : m.channels sourceCid.raw = some ch) :
      AgreesAt sourceCid.raw (some ch) (m.ertm sourceCid.raw) := hch ▸ h sourceCid.raw
  refine onConfigResponse_cases (P := fun outcome => outcome.1.Tables) (fun _ => h)
    (fun ch hch hstale hresult hmax => ?_) (fun ch hch hstale hresult hmax => ?_)
    (fun ch hch hstale hresult => ?_) (fun ch hch hstale hresult m₂ ch₂ events hpromotion => ?_)
    (fun ch hch hstale _ _ _ => ?_)
  · have hcounter : (m.setChannel sourceCid.raw (ch.adoptCounter m.localMtu options)).channels
        sourceCid.raw = some (ch.adoptCounter m.localMtu options) := update_self ..
    dsimp only
    rw [failConfiguration_some hcounter]
    exact h.update (update_idem ..) rfl .free
  · refine Tables.proposed (h.setChannel ?_) (update_self ..)
    obtain ⟨localMtu, hcounter⟩ := ch.adoptCounter_eq m.localMtu options
    rw [hcounter]
    refine (hat hch).congr rfl ?_ fun _ => ⟨rfl, rfl, rfl⟩
    by_cases hopen : ch.state = .open_
    · have hmode : (Channel.counterMode options).all (· = ch.mode) = true := by
        simpa [keepsTables, hch, hstale, hresult, hopen, Nat.not_le.mpr hmax] using hkeeps
      cases hcounter : Channel.counterMode options with
      | none => rfl
      | some mode =>
        obtain rfl : mode = ch.mode := by simpa [hcounter] using hmode
        rfl
    · simp [Channel.runsErtm, hopen]
  · have hagrees : AgreesAt sourceCid.raw (some (options.foldl Channel.readPendingOption ch))
        (m.ertm sourceCid.raw) := by
      rw [Channel.foldl_readPendingOption]
      refine (hat hch).congr rfl rfl fun hruns => ⟨rfl, ?_, rfl⟩
      obtain ⟨hopen, hmode⟩ := ch.runsErtm_iff.mp hruns
      have hfcs : (lastOf ConfigOption.fcs? options).all (· = ch.parameters.fcs) = true := by
        simpa [keepsTables, hch, hstale, hresult, hopen, hmode] using hkeeps
      cases hlast : lastOf ConfigOption.fcs? options with
      | none => rfl
      | some fcs => simpa [hlast] using hfcs
    have hpending := h.setChannel hagrees
    cases retired with
    | none => exact hpending
    | some out => exact hpending.congr rfl rfl
  · refine Tables.promotion (h.setChannel (Tables.setOutgoingDone ?_)) (update_self ..) hpromotion
    obtain ⟨parameters, hfcs, hmps, hread⟩ := ch.foldl_readAnswerOption options
    rw [hread]
    exact (hat hch).congr rfl rfl fun _ => ⟨rfl, hfcs, hmps⟩
  · exact h.failConfiguration hch

/-! ## Calls -/

section

variable (h : m.Tables)
include h

theorem Tables.dispatch {sig : Signal} (retired : Option Outstanding)
    (hkeeps : m.keepsTables sig = true) : (m.dispatch sig retired).1.Tables := by
  cases sig with
  | connectionRequest id psm sourceCid => exact h.onConnectionRequest id psm sourceCid
  | connectionResponse id destCid sourceCid result status =>
    exact h.onConnectionResponse (by simpa [keepsTables] using hkeeps)
  | configurationRequest id destCid flags options => exact h.onConfigRequest hkeeps
  | configurationResponse id sourceCid flags result options =>
    exact h.onConfigResponse retired hkeeps
  | disconnectionRequest id destCid sourceCid =>
    simp only [Multiplexer.dispatch, signal_disconnectionResponse, andThen_ok]
    exact h.closeChannel destCid.raw
  | disconnectionResponse id destCid sourceCid => exact h.closeChannel sourceCid.raw
  | commandReject id reason data =>
    cases retired with
    | none => exact h
    | some out =>
      have hanswered : (m.removePending id).Tables := h.congr rfl rfl
      exact hanswered.failChannel _
  | echoRequest | echoResponse | informationRequest | informationResponse => exact h

theorem Tables.handleSignal {sig : Signal} (hkeeps : m.keepsTables sig = true) :
    (m.handleSignal sig).1.Tables := by
  unfold Multiplexer.handleSignal
  cases sig.answers with
  | none => exact h.dispatch none hkeeps
  | some id =>
    have hretired : (m.removeOutstanding id).Tables := h.congr rfl rfl
    exact hretired.dispatch _ hkeeps

theorem Tables.setErtm {ertm ertm' : Ertm} (hertm : m.ertm raw = some ertm)
    (hparams : ertm'.params = ertm.params) : (m.setErtm raw ertm').Tables := by
  have hat := h raw
  rw [hertm] at hat
  generalize hch : m.channels raw = ch? at hat
  cases hat with
  | @engine ch _ hcid hruns hframed =>
    have hchannels : m.channels = Function.update m.channels raw (some ch) := by
      rw [← hch, update_eq_self]
    exact h.update hchannels rfl (.engine hcid hruns
      ⟨by rw [hparams, hframed.remoteCid], by rw [hparams, hframed.fcs],
        by rw [hparams, hframed.sendMps]⟩)

theorem Tables.handleData (pdu : L2capPdu) : (m.handleData pdu).1.Tables := by
  unfold Multiplexer.handleData
  cases m.channels pdu.cid.raw with
  | none => exact h
  | some ch =>
    dsimp only
    split
    · exact h
    · cases hertm : m.ertm pdu.cid.raw with
      | none => exact h
      | some ertm =>
        dsimp only
        split
        · exact h
        next ertm' out hreceive =>
          have hset := h.setErtm hertm (Ertm.params_receive hreceive)
          split
          · exact hset.failChannel _
          · exact hset

theorem Tables.send (cid : Cid) (payload : Bytes) :
    (m.send cid payload).1.Tables := by
  unfold Multiplexer.send
  cases m.channels cid.raw with
  | none => exact h
  | some ch =>
    dsimp only
    split
    · exact h
    · split
      · exact h
      · cases hertm : m.ertm cid.raw with
        | none => exact h
        | some ertm =>
          dsimp only
          split
          · exact h
          next ertm' out hsend =>
            have hset := h.setErtm hertm (Ertm.params_send hsend)
            split
            · exact hset.failChannel _
            · exact hset

theorem Tables.connectWith (psm : Psm) (mode : ChannelMode) :
    (m.connectWith psm mode).1.Tables := by
  refine connectWith_cases (Q := fun outcome => outcome.1.Tables) (fun next => h.congr rfl rfl)
    (fun next localCid hfree => ?_)
  refine h.updateChannel rfl rfl ?_
  rw [h.ertm_of_free hfree]
  exact .plain rfl rfl

theorem Tables.disconnect (cid : Cid) : (m.disconnect cid).1.Tables := by
  cases hch : m.channels cid.raw with
  | none =>
    rw [disconnect_none hch]
    exact h.congr rfl rfl
  | some ch =>
    have hcid := h.localCid hch
    rw [disconnect_some hch]
    exact h.update rfl rfl (.plain hcid rfl)

theorem Tables.expire (ticking : Ticking) (id : UInt8) :
    (m.expire ticking id).1.Tables := by
  unfold Multiplexer.expire
  split
  · exact h
  · split
    · exact h.congr rfl rfl
    · exact h.congr rfl rfl

theorem Tables.tickErtm (elapsed : ℕ) (ticking : Ticking) (raw : UInt16) :
    (m.tickErtm elapsed ticking raw).1.Tables := by
  unfold Multiplexer.tickErtm
  split
  · exact h
  next ertm hertm =>
    have hset := h.setErtm hertm (Ertm.params_tick ertm elapsed)
    dsimp only
    split
    · exact hset
    · exact hset

end

theorem Tables.failEach (cids : List Cid) (h : m.Tables) (events : List L2capEvent) :
    (failEach cids m events).1.Tables := by
  induction cids generalizing m events with
  | nil => exact h
  | cons cid rest ih => exact ih (h.failChannel cid) _

theorem Tables.tick (h : m.Tables) (ids : List UInt8) (raws : List UInt16) (elapsed : ℕ) :
    (m.tick ids raws elapsed).1.Tables := by
  refine Tables.failEach _ ?_ _
  have hexpired : ∀ (ids : List UInt8) (acc : Multiplexer × Ticking), acc.1.Tables →
      (ids.foldl (fun acc id => acc.1.expire acc.2 id) acc).1.Tables := by
    intro ids
    induction ids with
    | nil => exact fun acc hacc => hacc
    | cons id ids ih => exact fun acc hacc => ih _ (hacc.expire acc.2 id)
  have hticked : ∀ (raws : List UInt16) (acc : Multiplexer × Ticking), acc.1.Tables →
      (raws.foldl (fun acc raw => acc.1.tickErtm elapsed acc.2 raw) acc).1.Tables := by
    intro raws
    induction raws with
    | nil => exact fun acc hacc => hacc
    | cons raw raws ih => exact fun acc hacc => ih _ (hacc.tickErtm elapsed acc.2 raw)
  have hpassed : (m.passTime elapsed).Tables := h.congr rfl rfl
  exact hticked raws _ (hexpired _ _ hpassed)

/-! ## Runs -/

/-- The condition on the steps of a run: `keepsTables` of every command. -/
def tablesCondition : Condition where
  call := fun _ _ => true
  command := keepsTables

theorem tables_run_invariant {localMtu : UInt16} {calls : List Call}
    (hmeets : runMeets tablesCondition calls (new localMtu) = true) :
    ((new localMtu).run calls).Tables := by
  refine run_induction (I := Tables) (fun m sig hm hkeeps => hm.handleSignal hkeeps)
    (fun m pdu hm _ => hm.handleData pdu) (fun m call hm _ hpdu => ?_) calls
    (tables_new localMtu) hmeets
  cases call with
  | listenWith psm mode =>
    change (m.listenWith psm mode).Tables
    unfold listenWith
    split <;> exact hm.congr rfl rfl
  | connectWith psm mode => exact hm.connectWith psm mode
  | send cid payload => exact hm.send cid payload
  | disconnect cid => exact hm.disconnect cid
  | linkDown order => exact fun _ => .free
  | tick ids raws elapsed => exact hm.tick ids raws elapsed
  | handlePdu pdu => exact absurd rfl (hpdu pdu)

/-- **The tables stay consistent** in every state of a run whose commands leave
open retransmission channels and their engines as they are. -/
theorem tables_run (localMtu : UInt16) (calls : List Call)
    (hmeets : runMeets tablesCondition calls (new localMtu) = true) (reached : List Call)
    (hreached : reached <+: calls) : ((new localMtu).run reached).Consistent :=
  (tables_run_invariant (runMeets_reached hreached hmeets)).consistent

/-- A channel we listened for, opened in Enhanced Retransmission Mode. -/
def openedInErtm : List Call :=
  [.listenWith .avdtp .enhancedRetransmission,
    .handlePdu (Signal.connectionRequest 1 .avdtp ⟨0x50⟩).pdu,
    .handlePdu (Signal.configurationResponse 1 ⟨0x40⟩ 0 .success []).pdu,
    .handlePdu (Signal.configurationRequest 2 ⟨0x40⟩ 0 [.retransmission (.ertm 600)]).pdu]

theorem tables_run_sample : runMeets tablesCondition openedInErtm (new 672) = true ∧
      ((new 672).run openedInErtm).Consistent :=
  ⟨by decide +kernel, tables_run 672 openedInErtm (by decide +kernel) openedInErtm
    (List.prefix_refl _)⟩

/-- A refusal of a connection we never asked for removes the open channel it
names and leaves its engine behind. -/
theorem refusal_leaves_engine : ¬ ((new 672).run (openedInErtm ++
      [.handlePdu (Signal.connectionResponse 9 .null ⟨0x40⟩ .noResources 0).pdu])).Consistent := by
  intro h
  obtain ⟨ch, hch, -⟩ := (h.1 0x40).mp (by decide +kernel)
  have hgone : ((new 672).run (openedInErtm ++
      [.handlePdu (Signal.connectionResponse 9 .null ⟨0x40⟩ .noResources 0).pdu])).channels 0x40 =
      none := by decide +kernel
  cases hgone.symm.trans hch

end Multiplexer

end Castaway.L2cap
