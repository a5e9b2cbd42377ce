import Castaway.L2cap.Mux
import Castaway.Lib.Runs

/-!
# What the methods of the multiplexer do

One lemma for each method that several handlers share, saying what it does to
the tables and what it returns.  The proofs about whole runs cite these and
never unfold the methods.
-/

namespace Castaway.L2cap

open Function

/-! ## Reading options

A loop over options lets the last one of a kind win. -/

/-- The last of the values `read` finds among the options. -/
def lastOf {α : Type} (read : ConfigOption → Option α) (options : List ConfigOption) : Option α :=
  (options.filterMap read).getLast?

theorem lastOf_concat {α : Type} (read : ConfigOption → Option α) (options : List ConfigOption)
    (option : ConfigOption) :
    lastOf read (options ++ [option]) = (read option).or (lastOf read options) := by
  unfold lastOf
  rw [List.filterMap_append]
  cases hread : read option <;> simp [hread]

def ConfigOption.fcs? : ConfigOption → Option FcsType
  | .fcs check => some check
  | _ => none

def ConfigOption.mtu? : ConfigOption → Option UInt16
  | .mtu size => some size
  | _ => none

namespace Channel

section

variable (ch : Channel)

/-- Of every option, the last one counts. -/
theorem foldl_readRequestOption (options : List ConfigOption) :
    options.foldl readRequestOption ch =
      { ch with
        remoteMtu := (lastOf ConfigOption.mtu? options).getD ch.remoteMtu
        parameters := { ch.parameters with
          fcs := (lastOf ConfigOption.fcs? options).getD ch.parameters.fcs } } := by
  induction options using List.reverseRecOn with
  | nil => rfl
  | append_singleton options option ih =>
    rw [List.foldl_concat, ih, lastOf_concat, lastOf_concat]
    cases option <;> rfl

theorem foldl_readPendingOption (options : List ConfigOption) :
    options.foldl readPendingOption ch =
      { ch with parameters := { ch.parameters with
          fcs := (lastOf ConfigOption.fcs? options).getD ch.parameters.fcs } } := by
  induction options using List.reverseRecOn with
  | nil => rfl
  | append_singleton options option ih =>
    rw [List.foldl_concat, ih, lastOf_concat]
    cases option <;> rfl

/-- An accepted proposal settles the timers and the window, and neither the
checksum nor the frame size. -/
theorem foldl_readAnswerOption (options : List ConfigOption) :
    ∃ parameters : ModeParameters, parameters.fcs = ch.parameters.fcs ∧
      parameters.sendMps = ch.parameters.sendMps ∧
      options.foldl readAnswerOption ch = { ch with parameters } := by
  induction options using List.reverseRecOn with
  | nil => exact ⟨ch.parameters, rfl, rfl, rfl⟩
  | append_singleton options option ih =>
    obtain ⟨parameters, hfcs, hmps, hfold⟩ := ih
    rw [List.foldl_concat, hfold]
    cases option with
    | retransmission config =>
      refine ⟨_, ?_, ?_, rfl⟩
      · exact hfcs
      · exact hmps
    | _ => exact ⟨parameters, hfcs, hmps, rfl⟩

theorem adoptCounter_eq (basicMtu : UInt16) (options : List ConfigOption) :
    ∃ localMtu, ch.adoptCounter basicMtu options =
      { ch with mode := (counterMode options).getD ch.mode, localMtu } := by
  have hmtu (ch : Channel) : ∃ localMtu, options.foldl (fun ch option =>
      match option with
      | .mtu mtu => { ch with localMtu := mtu }
      | _ => ch) ch = { ch with localMtu } := by
    induction options using List.reverseRecOn with
    | nil => exact ⟨ch.localMtu, rfl⟩
    | append_singleton options option ih =>
      obtain ⟨localMtu, hfold⟩ := ih
      rw [List.foldl_concat, hfold]
      cases option <;> exact ⟨_, rfl⟩
  unfold adoptCounter
  cases counterMode options with
  | none => exact hmtu ch
  | some mode =>
    obtain ⟨localMtu, hfold⟩ := hmtu
      { ch with mode, localMtu := min ch.localMtu (ceilingFor mode basicMtu) }
    exact ⟨localMtu, hfold⟩

theorem adoptCounter_configAttempts (basicMtu : UInt16) (options : List ConfigOption) :
    (ch.adoptCounter basicMtu options).configAttempts = ch.configAttempts := by
  obtain ⟨localMtu, h⟩ := ch.adoptCounter_eq basicMtu options
  rw [h]

/-- What a channel takes over from a request it accepts. -/
theorem adopt_eq (basicMtu receiveMps : UInt16) (options : List ConfigOption) :
    ch.adopt basicMtu receiveMps options =
      { ch with
        mode := (proposalOf options).mode
        localMtu := min ch.localMtu (ceilingFor (proposalOf options).mode basicMtu)
        remoteMtu := (lastOf ConfigOption.mtu? options).getD ch.remoteMtu
        parameters := { ch.parameters with
          fcs := (lastOf ConfigOption.fcs? options).getD ch.parameters.fcs
          sendMps :=
            if (proposalOf options).mode = .enhancedRetransmission then
              max (min (proposalOf options).mps receiveMps) 1
            else ch.parameters.sendMps } } := by
  unfold adopt
  dsimp only
  rw [foldl_readRequestOption]
  dsimp only
  split <;> rfl

end

/-- An accepted request does not move the mode of a settled channel. -/
theorem mode_of_settled {ch : Channel} {receiveMps : UInt16} {options : List ConfigOption}
    (haccepted : ch.refusal receiveMps options = none) (hsettled : ch.settled = true) :
    (proposalOf options).mode = ch.mode := by
  by_contra hmode
  unfold refusal at haccepted
  dsimp only at haccepted
  split at haccepted
  · cases haccepted
  · split at haccepted
    · cases haccepted
    · rw [if_pos ⟨hmode, by simp [hsettled]⟩] at haccepted
      cases haccepted

end Channel

/-! ## Commands that always fit -/

/-- The PDU that carries a command. -/
def Signal.pdu (sig : Signal) : L2capPdu := ⟨.signaling, sig.wire⟩

/-- A channel whose proposal has gone out under `id`. -/
def Channel.proposing (ch : Channel) (id : UInt8) : Channel :=
  { ch with
    configId := some id
    proposedMode := ch.mode
    configAttempts := saturatingSucc 255 ch.configAttempts }

namespace Multiplexer

/-- A command that fits is sent. -/
theorem signal_eq {sig : Signal} (h : sig.body.length ≤ 65535) :
    signal sig = .ok (.send sig.pdu) := by
  simp only [signal, Signal.encode, if_neg (Nat.not_lt.mpr h)]
  rfl

@[simp] theorem signal_connectionRequest (id : UInt8) (psm : Psm) (sourceCid : Cid) :
    signal (.connectionRequest id psm sourceCid) =
      .ok (.send (Signal.connectionRequest id psm sourceCid).pdu) :=
  signal_eq (by simp [Signal.body])

@[simp] theorem signal_connectionResponse (id : UInt8) (destCid sourceCid : Cid)
    (result : ConnectionResult) (status : UInt16) :
    signal (.connectionResponse id destCid sourceCid result status) =
      .ok (.send (Signal.connectionResponse id destCid sourceCid result status).pdu) :=
  signal_eq (by simp [Signal.body])

@[simp] theorem signal_disconnectionRequest (id : UInt8) (destCid sourceCid : Cid) :
    signal (.disconnectionRequest id destCid sourceCid) =
      .ok (.send (Signal.disconnectionRequest id destCid sourceCid).pdu) :=
  signal_eq (by simp [Signal.body])

@[simp] theorem signal_disconnectionResponse (id : UInt8) (destCid sourceCid : Cid) :
    signal (.disconnectionResponse id destCid sourceCid) =
      .ok (.send (Signal.disconnectionResponse id destCid sourceCid).pdu) :=
  signal_eq (by simp [Signal.body])

/-- A rejection always fits. -/
theorem rejectAll_eq (refusals : List CommandRefusal) :
    rejectAll refusals = .ok (refusals.map fun refusal =>
      .send (Signal.commandReject refusal.id refusal.reason []).pdu) := by
  induction refusals with
  | nil => rfl
  | cons refusal rest ih =>
    have hsignal := @signal_eq (.commandReject refusal.id refusal.reason []) (by simp [Signal.body])
    rw [rejectAll, hsignal, ih]
    rfl

theorem signal_proposal (id : UInt8) (destCid : Cid) (flags : UInt16) (ch : Channel)
    (receiveMps : UInt16) :
    signal (.configurationRequest id destCid flags (ch.proposal receiveMps)) =
      .ok (.send (Signal.configurationRequest id destCid flags (ch.proposal receiveMps)).pdu) := by
  apply signal_eq
  unfold Channel.proposal
  split <;> simp [Signal.body, ConfigOption.encode, ConfigOption.body]

theorem signal_acceptance (id : UInt8) (sourceCid : Cid) (flags : UInt16) (ch : Channel)
    (proposed : RetransmissionConfig) :
    signal (.configurationResponse id sourceCid flags .success (ch.acceptance proposed)) =
      .ok (.send
        (Signal.configurationResponse id sourceCid flags .success (ch.acceptance proposed)).pdu) := by
  apply signal_eq
  unfold Channel.acceptance
  split <;> simp [Signal.body, ConfigOption.encode, ConfigOption.body]

/-! ## Identifiers -/

theorem findCid_spec (channels : UInt16 → Option Channel) (tries : ℕ) (candidate : UInt16) :
    (findCid channels tries candidate).2 = .error .outOfCids ∨
      ∃ cid, (findCid channels tries candidate).2 = .ok cid ∧ channels cid.raw = none := by
  induction tries generalizing candidate with
  | zero => exact .inl rfl
  | succ tries ih =>
    unfold findCid
    dsimp only
    split
    next hfree => exact .inr ⟨⟨candidate⟩, rfl, hfree⟩
    next => exact ih _

/-- The identifier is free, or there is none.  Only the next candidate moves. -/
@[elab_as_elim]
theorem allocCid_cases {m : Multiplexer} {P : Multiplexer × Except L2capError Cid → Prop}
    (full : ∀ next, P ({ m with nextCid := next }, .error .outOfCids))
    (free : ∀ next cid, m.channels cid.raw = none → P ({ m with nextCid := next }, .ok cid)) :
    P m.allocCid := by
  unfold allocCid
  dsimp only
  rcases findCid_spec m.channels (65535 - Cid.dynamicStart.toNat) m.nextCid with
    hfull | ⟨cid, hcid, hfree⟩
  · rw [hfull]
    exact full _
  · rw [hcid]
    exact free _ cid hfree

/-! ## Giving a channel up -/

/-- The channel `raw` and all that belongs to it, gone. -/
@[simps] def forget (m : Multiplexer) (raw : UInt16) : Multiplexer :=
  { m with
    channels := update m.channels raw none
    ertm := update m.ertm raw none
    outstanding := fun id => (m.outstanding id).filter fun out => out.rawCid ≠ raw }

variable {m : Multiplexer} {raw : UInt16} {ch : Channel} {cid sourceCid : Cid}

theorem failChannel_none (h : m.channels cid.raw = none) :
    m.failChannel cid = ((m.removeErtm cid.raw).retireTimers cid.raw, []) := by
  simp [failChannel, h]

/-- A channel that fails is forgotten and reported closed. -/
theorem failChannel_some (h : m.channels cid.raw = some ch) :
    m.failChannel cid = ((m.forget cid.raw).allocId,
      [.send (Signal.disconnectionRequest m.nextId ch.remoteCid ch.localCid).pdu,
        .channelClosed ch.localCid ch.psm]) := by
  simp only [failChannel, retireTimers_channels, removeErtm_channels, h,
    signal_disconnectionRequest]
  rfl

theorem failConfiguration_some (h : m.channels cid.raw = some ch) :
    m.failConfiguration cid =
      ((m.forget cid.raw).allocId.awaiting m.nextId cid.raw
        (.disconnectionRequest m.nextId ch.remoteCid ch.localCid),
      [.send (Signal.disconnectionRequest m.nextId ch.remoteCid ch.localCid).pdu,
        .channelClosed ch.localCid ch.psm]) := by
  simp only [failConfiguration, retireTimers_channels, removeErtm_channels, h,
    retireTimers_nextId, removeErtm_nextId, signal_disconnectionRequest]
  rfl

theorem closeChannel_none (h : m.channels raw = none) :
    m.closeChannel raw = ((m.removeErtm raw).retireTimers raw, []) := by
  simp [closeChannel, h]

/-- So is one that is closed. -/
theorem closeChannel_some (h : m.channels raw = some ch) :
    m.closeChannel raw = (m.forget raw, [.channelClosed ch.localCid ch.psm]) := by
  simp only [closeChannel, retireTimers_channels, removeErtm_channels, h]
  rfl

/-! ## Proposing and opening -/

/-- Our configuration request for `ch`, under the next identifier. -/
def proposalFor (m : Multiplexer) (ch : Channel) : Signal :=
  .configurationRequest m.nextId ch.remoteCid 0 (ch.proposal m.receiveMps)

/-- The request for `raw` has gone out, and its timer is the only one of the
channel. -/
def proposed (m : Multiplexer) (raw : UInt16) (ch : Channel) : Multiplexer :=
  ((m.allocId.retireTimers raw).setChannel raw (ch.proposing m.nextId)).awaiting m.nextId raw
    (m.proposalFor ch)

theorem requestConfiguration_some (h : m.channels raw = some ch) :
    m.requestConfiguration raw = (m.proposed raw ch, .ok (.send (m.proposalFor ch).pdu)) := by
  have hsignal : signal (m.proposalFor ch) = .ok (.send (m.proposalFor ch).pdu) :=
    signal_proposal m.nextId ch.remoteCid 0 ch m.receiveMps
  simp only [requestConfiguration, retireTimers_channels, allocId_channels, h]
  split
  next event hevent =>
    obtain rfl : .send (m.proposalFor ch).pdu = event :=
      Except.ok.inj (hsignal.symm.trans hevent)
    rfl
  next error herror => cases hsignal.symm.trans herror

/-- The channel `raw` is open, with an engine if its mode needs one. -/
def opened (m : Multiplexer) (raw : UInt16) (ch : Channel) : Multiplexer :=
  let m := (m.setChannel raw { ch with state := .open_ }).retireTimers raw
  if ch.mode = .enhancedRetransmission then m.setErtm raw (.new ch.ertmParameters) else m

/-- What promotion makes of the channel `raw`. -/
inductive Promotion (m : Multiplexer) (raw : UInt16) (ch : Channel) :
    Multiplexer → Channel → List L2capEvent → Prop
  | waiting (hready : ch.state ≠ .waitConfig true true) : Promotion m raw ch m ch []
  | opened (hready : ch.state = .waitConfig true true) :
      Promotion m raw ch (m.opened raw ch) { ch with state := .open_ }
        [.channelOpen ch.localCid ch.psm ch.remoteMtu]

theorem opened_channels (m : Multiplexer) (raw : UInt16) (ch : Channel) :
    (m.opened raw ch).channels =
      update m.channels raw (some { ch with state := .open_ }) := by
  unfold opened
  dsimp only
  split <;> rfl

/-- A channel opens once both directions are configured. -/
theorem promotion (h : m.channels raw = some ch) : ∃ m' ch' events,
    Promotion m raw ch m' ch' events ∧ m.promoteIfConfigured raw = (m', events) := by
  by_cases hready : ch.state = .waitConfig true true
  · refine ⟨_, _, _, .opened hready, ?_⟩
    simp only [promoteIfConfigured, h, if_pos hready]
    rfl
  · refine ⟨_, _, _, .waiting hready, ?_⟩
    simp only [promoteIfConfigured, h, if_neg hready]

theorem Promotion.channel {m' : Multiplexer} {ch' : Channel} {events : List L2capEvent}
    (hpromotion : Promotion m raw ch m' ch' events) (h : m.channels raw = some ch) :
    m'.channels raw = some ch' := by
  cases hpromotion with
  | waiting => exact h
  | opened => rw [opened_channels, update_self]

/-! ## The handlers, case by case

`P` is what is to be shown of the state a handler leaves and of what it returns.
-/

variable {P : Multiplexer × Except L2capError (List L2capEvent) → Prop}

theorem onConnectionRequest_cases {id : UInt8} {psm : Psm}
    (refused : P (m.reply (.connectionResponse id .null sourceCid .psmNotSupported 0)))
    (full : ∀ next, P ({ m with nextCid := next }, .error .outOfCids))
    (accepted : ∀ next localCid mode, m.channels localCid.raw = none →
      let m₁ := { m with nextCid := next }
      let ch := Channel.listened localCid sourceCid psm (m₁.modeMtu mode) mode
      let m₂ := m₁.setChannel localCid.raw ch
      P (m₂.proposed localCid.raw ch,
        .ok [.send (Signal.connectionResponse id localCid sourceCid .success 0).pdu,
          .send (m₂.proposalFor ch).pdu])) :
    P (m.onConnectionRequest id psm sourceCid) := by
  unfold onConnectionRequest
  split
  · exact refused
  next entry mode hentry =>
    refine allocCid_cases (m := m) (fun next => full next) (fun next localCid hfree => ?_)
    rw [andThen_ok, signal_connectionResponse, andThen_ok,
      requestConfiguration_some (update_self ..)]
    exact accepted next localCid mode hfree

def responseChannel (m : Multiplexer) (id : UInt8) (sourceCid : Cid) : UInt16 :=
  (m.pending id).getD sourceCid.raw

/-- The answer is to nothing, or refuses, or accepts. -/
theorem onConnectionResponse_cases {id : UInt8} {destCid : Cid} {result : ConnectionResult}
    (ignored : result = .pending ∨ m.channels (m.responseChannel id sourceCid) = none →
      P (m, .ok []))
    (refused : ∀ ch, m.channels (m.responseChannel id sourceCid) = some ch →
      result ≠ .pending → result ≠ .success →
      P ((m.removeChannel (m.responseChannel id sourceCid)).removePending id,
        .ok [.connectFailed ch.psm result]))
    (connected : ∀ ch, m.channels (m.responseChannel id sourceCid) = some ch →
      result = .success →
      let ch' := { ch with remoteCid := destCid, state := .waitConfig false false }
      let m' := (m.setChannel (m.responseChannel id sourceCid) ch').removePending id
      P (m'.proposed (m.responseChannel id sourceCid) ch', .ok [.send (m'.proposalFor ch').pdu])) :
    P (m.onConnectionResponse id destCid sourceCid result) := by
  unfold onConnectionResponse
  split
  next hpending => exact ignored (.inl hpending)
  next hpending =>
    have hraw : (m.pending id).getD sourceCid.raw = m.responseChannel id sourceCid := rfl
    simp only [hraw]
    cases hch : m.channels (m.responseChannel id sourceCid) with
    | none => exact ignored (.inr hch)
    | some ch =>
      dsimp only
      split
      next hrefused => exact refused ch hch hpending hrefused
      next hsuccess =>
        rw [requestConfiguration_some (by
          rw [removePending_channels, setChannel_channels, update_self])]
        exact connected ch hch (not_not.mp hsuccess)

theorem acceptConfigRequest_cases {id : UInt8} {continues : Bool} {options : List ConfigOption}
    (continued : continues = true →
      let ch₁ := ch.adopt m.localMtu m.receiveMps options
      P (m.setChannel raw ch₁, .ok [.send (Signal.configurationResponse id ch₁.remoteCid
        continuationFlag .success (ch₁.acceptance (proposalOf options))).pdu]))
    (agreed : ∀ m₂ ch₂ events, continues = false →
      let ch₁ := (ch.adopt m.localMtu m.receiveMps options).setIncomingDone
      Promotion (m.setChannel raw ch₁) raw ch₁ m₂ ch₂ events → ch₁.mode = ch₁.proposedMode →
      P (m₂, .ok (.send (Signal.configurationResponse id ch₁.remoteCid 0 .success
        (ch₁.acceptance (proposalOf options))).pdu :: events)))
    (exhausted : ∀ m₂ ch₂ events, continues = false →
      let ch₁ := (ch.adopt m.localMtu m.receiveMps options).setIncomingDone
      Promotion (m.setChannel raw ch₁) raw ch₁ m₂ ch₂ events → m₂.channels raw = some ch₂ →
      ch₁.mode ≠ ch₁.proposedMode → maxConfigAttempts ≤ ch₁.configAttempts →
      P ((m₂.failConfiguration ⟨raw⟩).1, .ok (m₂.failConfiguration ⟨raw⟩).2))
    (reproposed : ∀ m₂ ch₂ events, continues = false →
      let ch₁ := (ch.adopt m.localMtu m.receiveMps options).setIncomingDone
      Promotion (m.setChannel raw ch₁) raw ch₁ m₂ ch₂ events → m₂.channels raw = some ch₂ →
      ch₁.mode ≠ ch₁.proposedMode → ch₁.configAttempts < maxConfigAttempts →
      P (m₂.proposed raw ch₂, .ok (.send (Signal.configurationResponse id ch₁.remoteCid 0 .success
        (ch₁.acceptance (proposalOf options))).pdu :: events ++
          [.send (m₂.proposalFor ch₂).pdu]))) :
    P (m.acceptConfigRequest id raw ch continues options) := by
  unfold acceptConfigRequest
  cases continues with
  | true =>
    simp only [signal_acceptance, if_true, andThen_ok]
    exact continued rfl
  | false =>
    have hset : (m.setChannel raw
        (ch.adopt m.localMtu m.receiveMps options).setIncomingDone).channels raw =
        some (ch.adopt m.localMtu m.receiveMps options).setIncomingDone :=
      update_self ..
    obtain ⟨m₂, ch₂, events, hpromotion, hpromote⟩ := promotion hset
    have hch₂ := hpromotion.channel hset
    simp only [signal_acceptance, Bool.false_eq_true, if_false, andThen_ok, hpromote]
    split
    next hmode =>
      split
      next hattempts => exact exhausted m₂ ch₂ events rfl hpromotion hch₂ hmode hattempts
      next hattempts =>
        rw [requestConfiguration_some hch₂, andThen_ok]
        exact reproposed m₂ ch₂ events rfl hpromotion hch₂ hmode (Nat.lt_of_not_le hattempts)
    next hmode => exact agreed m₂ ch₂ events rfl hpromotion (not_not.mp hmode)

/-- The answer is stale, or refuses, counters, waits or accepts. -/
theorem onConfigResponse_cases {id : UInt8} {result : ConfigResult}
    {options : List ConfigOption} {retired : Option Outstanding}
    (ignored : (m.channels sourceCid.raw).all (·.isStale id) → P (m, .ok []))
    (exhausted : ∀ ch, m.channels sourceCid.raw = some ch → ch.isStale id = false →
      result = .unacceptable → maxConfigAttempts ≤ ch.configAttempts →
      let m' := m.setChannel sourceCid.raw (ch.adoptCounter m.localMtu options)
      P ((m'.failConfiguration sourceCid).1, .ok (m'.failConfiguration sourceCid).2))
    (countered : ∀ ch, m.channels sourceCid.raw = some ch → ch.isStale id = false →
      result = .unacceptable → ch.configAttempts < maxConfigAttempts →
      let ch' := ch.adoptCounter m.localMtu options
      let m' := m.setChannel sourceCid.raw ch'
      P (m'.proposed sourceCid.raw ch', .ok [.send (m'.proposalFor ch').pdu]))
    (pending : ∀ ch, m.channels sourceCid.raw = some ch → ch.isStale id = false →
      result = .pending →
      let m' := m.setChannel sourceCid.raw (options.foldl Channel.readPendingOption ch)
      P (match retired with
        | some out => m'.setOutstanding id { out with remaining := ertx, onExpiry := .giveUp }
        | none => m', .ok []))
    (accepted : ∀ ch, m.channels sourceCid.raw = some ch → ch.isStale id = false →
      result = .success → ∀ m₂ ch₂ events,
      let ch₁ := { options.foldl Channel.readAnswerOption ch with configId := none }.setOutgoingDone
      Promotion (m.setChannel sourceCid.raw ch₁) sourceCid.raw ch₁ m₂ ch₂ events →
      P (m₂, .ok events))
    (failed : ∀ ch, m.channels sourceCid.raw = some ch → ch.isStale id = false →
      result ≠ .unacceptable → result ≠ .pending → result ≠ .success →
      P ((m.failConfiguration sourceCid).1, .ok (m.failConfiguration sourceCid).2)) :
    P (m.onConfigResponse id sourceCid result options retired) := by
  unfold onConfigResponse
  cases hch : m.channels sourceCid.raw with
  | none => exact ignored (by rw [hch]; rfl)
  | some ch =>
    dsimp only
    cases hstale : ch.isStale id with
    | true => exact ignored (by rw [hch]; exact hstale)
    | false =>
      simp only [Bool.false_eq_true, if_false]
      cases result with
      | unacceptable =>
        have hattempts : (ch.adoptCounter m.localMtu options).configAttempts =
            ch.configAttempts := ch.adoptCounter_configAttempts _ _
        dsimp only
        rw [hattempts]
        split
        next hmax => exact exhausted ch hch hstale rfl hmax
        next hmax =>
          rw [requestConfiguration_some (update_self ..), andThen_ok]
          exact countered ch hch hstale rfl (Nat.lt_of_not_le hmax)
      | pending =>
        have hpending := pending ch hch hstale rfl
        cases retired with
        | none | some out => exact hpending
      | success =>
        obtain ⟨m₂, ch₂, events, hpromotion, hpromote⟩ := promotion
          (m := m.setChannel sourceCid.raw
            { options.foldl Channel.readAnswerOption ch with configId := none }.setOutgoingDone)
          (update_self ..)
        simp only [hpromote]
        exact accepted ch hch hstale rfl m₂ ch₂ events hpromotion
      | rejected | unknownOptions | other raw => exact failed ch hch hstale nofun nofun nofun

/-! ## The owner's calls, case by case -/

theorem connectWith_cases {psm : Psm} {mode : ChannelMode}
    {Q : Multiplexer × Except L2capError (Cid × List L2capEvent) → Prop}
    (full : ∀ next, Q ({ m with nextCid := next }, .error .outOfCids))
    (dialled : ∀ next localCid, m.channels localCid.raw = none →
      let request := Signal.connectionRequest m.nextId psm localCid
      let m₁ := { m with nextCid := next }
      let m₂ := m₁.allocId.setChannel localCid.raw (.dialled localCid psm (m₁.modeMtu mode) mode)
      Q ((m₂.setPending m.nextId localCid.raw).awaiting m.nextId localCid.raw request,
        .ok (localCid, [.send request.pdu]))) :
    Q (m.connectWith psm mode) := by
  unfold connectWith
  refine allocCid_cases (m := m) (fun next => full next) (fun next localCid hfree => ?_)
  rw [andThen_ok]
  dsimp only
  rw [signal_connectionRequest, andThen_ok]
  exact dialled next localCid hfree

theorem disconnect_none (h : m.channels cid.raw = none) :
    m.disconnect cid = (m.allocId, .error (.unknownChannel cid)) := by
  simp only [disconnect, allocId_channels, h]

/-- A channel that is left waits for the answer. -/
theorem disconnect_some (h : m.channels cid.raw = some ch) : m.disconnect cid =
      ((((m.allocId.setChannel cid.raw { ch with state := .waitDisconnect }).removeErtm
          cid.raw).retireTimers cid.raw).awaiting m.nextId cid.raw
          (.disconnectionRequest m.nextId ch.remoteCid ch.localCid),
        .ok [.send (Signal.disconnectionRequest m.nextId ch.remoteCid ch.localCid).pdu]) := by
  simp only [disconnect, allocId_channels, h, signal_disconnectionRequest, andThen_ok]

end Multiplexer

end Castaway.L2cap
