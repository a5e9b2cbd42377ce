import Castaway.L2cap.Calls
import Castaway.Lib.Stages
import Mathlib.Data.List.Flatten
import Mathlib.Data.List.Nodup

/-!
# The lifecycle of a channel

A channel moves from waiting for its connection response to configuring, to
open, to disconnecting, and is removed.  `Lawful` says what one step may do: no
channel goes back a stage, a channel that becomes open is announced once, data
comes from open channels only, and the channels removed are reported one by one.
The results about runs follow from it by the lemmas on stages.

## Strategy

One command breaks it.  A connection response that says `Success` sets the
channel it resolves to back to configuring, whatever its stage.
`keepsForward` is the condition on the state before a command that rules this
out, and asks that a connection request finds a free identifier: a command
that fails takes the events of its whole frame with it.

A frame is handled command by command, so a run is first cut into moves
(`Call.moves`).  **The headline result** `lifecycle_run` says that the moves
bring about the states and the events of the run, and that they are lawful over
the whole run (`Lifecycle`).
-/

namespace Castaway.L2cap

open Function List

def ChannelState.stage : ChannelState → ℕ
  | waitConnectRsp => 0
  | waitConfig .. => 1
  | open_ => 2
  | waitDisconnect => 3

namespace L2capEvent

/-- The event says something about a channel, beyond sending a PDU. -/
def isLoud : L2capEvent → Bool
  | send _ => false
  | _ => true

/-- The channel `raw` is announced. -/
def opens (raw : UInt16) : L2capEvent → Bool
  | channelOpen cid _ _ => cid.raw = raw
  | _ => false

/-- Data of the channel `raw`. -/
def carries (raw : UInt16) : L2capEvent → Bool
  | data cid _ _ => cid.raw = raw
  | _ => false

def isData : L2capEvent → Bool
  | data .. => true
  | _ => false

def isReport : L2capEvent → Bool
  | channelClosed .. | connectFailed .. => true
  | _ => false

variable {raw : UInt16} {event : L2capEvent}

theorem isLoud_of_opens (h : event.opens raw = true) :
    event.isLoud = true := by
  cases event <;> first | rfl | cases h

theorem isLoud_of_isReport (h : event.isReport = true) :
    event.isLoud = true := by
  cases event <;> first | rfl | cases h

theorem isLoud_of_isData (h : event.isData = true) : event.isLoud = true := by
  cases event <;> first | rfl | cases h

theorem isData_of_isReport (h : event.isReport = true) :
    event.isData = false := by
  cases event <;> first | rfl | cases h

theorem isData_of_opens (h : event.opens raw = true) :
    event.isData = false := by
  cases event <;> first | rfl | cases h

theorem isReport_of_opens (h : event.opens raw = true) :
    event.isReport = false := by
  cases event <;> first | rfl | cases h

theorem isData_of_carries (h : event.carries raw = true) :
    event.isData = true := by
  cases event <;> first | rfl | cases h

end L2capEvent

/-- The event reports the end of the channel: closed, or never connected. -/
inductive Channel.ReportedBy (ch : Channel) : L2capEvent → Prop
  | closed : ReportedBy ch (.channelClosed ch.localCid ch.psm)
  | refused (result : ConnectionResult) : ReportedBy ch (.connectFailed ch.psm result)

theorem Channel.ReportedBy.isReport {ch : Channel} {event : L2capEvent}
    (h : ch.ReportedBy event) : event.isReport = true := by
  cases h <;> rfl

namespace Multiplexer

/-- The stage of the channel `raw`, if there is one. -/
def stage (m : Multiplexer) (raw : UInt16) : Option ℕ :=
  (m.channels raw).map fun ch => ch.state.stage

/-- Every channel is kept under its own identifier. -/
def Keyed (m : Multiplexer) : Prop := ∀ raw ch, m.channels raw = some ch → ch.localCid.raw = raw

variable {m m' m'' : Multiplexer} {raw : UInt16} {ch ch' : Channel} {events : List L2capEvent}
  {removed order : List UInt16} {reports : List L2capEvent}

theorem Keyed.congr (h : m.Keyed) (hchannels : m'.channels = m.channels) : m'.Keyed :=
  fun raw ch hch => h raw ch (hchannels ▸ hch)

theorem Keyed.update (h : m.Keyed)
    (hchannels : m'.channels = update m.channels raw (some ch))
    (hcid : ch.localCid.raw = raw) : m'.Keyed := fun k ch' hch' => by
  rw [hchannels] at hch'
  by_cases hk : k = raw
  · subst hk
    rw [update_self] at hch'
    cases hch'
    exact hcid
  · rw [update_of_ne hk] at hch'
    exact h k ch' hch'

/-! ## Removals -/

/-- The channels `removed` are gone, each with its report, and nothing else has
changed. -/
structure Removes (m m' : Multiplexer) (removed : List UInt16) (reports : List L2capEvent) :
    Prop where
  nodup : removed.Nodup
  gone : ∀ raw, m'.channels raw = if raw ∈ removed then none else m.channels raw
  reported : List.Forall₂ (fun raw event => ∃ ch, m.channels raw = some ch ∧ ch.ReportedBy event)
    removed reports

theorem removes_nothing (hchannels : m'.channels = m.channels) : Removes m m' [] [] where
  nodup := nodup_nil
  gone := fun raw => by rw [hchannels, if_neg not_mem_nil]
  reported := .nil

theorem removes_one (hch : m.channels raw = some ch)
    (hchannels : m'.channels = update m.channels raw none) {report : L2capEvent}
    (hreport : ch.ReportedBy report) : Removes m m' [raw] [report] where
  nodup := nodup_singleton raw
  gone := fun k => by
    simp only [hchannels, update_apply, mem_singleton]
  reported := .cons ⟨ch, hch, hreport⟩ .nil

theorem Removes.present
    (h : Removes m m' removed reports) (hraw : raw ∈ removed) : ∃ ch, m.channels raw = some ch := by
  obtain ⟨-, -, hreported⟩ := h
  induction hreported with
  | nil => cases hraw
  | cons hhead _ ih =>
    rcases mem_cons.mp hraw with rfl | htail
    · obtain ⟨ch, hch, -⟩ := hhead
      exact ⟨ch, hch⟩
    · exact ih htail

theorem Removes.isReport
    (h : Removes m m' removed reports) {event : L2capEvent} (hevent : event ∈ reports) :
    event.isReport = true := by
  obtain ⟨-, -, hreported⟩ := h
  induction hreported with
  | nil => cases hevent
  | cons hhead _ ih =>
    rcases mem_cons.mp hevent with rfl | htail
    · obtain ⟨ch, -, hreport⟩ := hhead
      exact hreport.isReport
    · exact ih htail

theorem Removes.append {removed' : List UInt16} {reports' : List L2capEvent}
    (h : Removes m m' removed reports) (h' : Removes m' m'' removed' reports') :
    Removes m m'' (removed ++ removed') (reports ++ reports') where
  nodup := by
    refine h.nodup.append h'.nodup fun raw hraw hraw' => ?_
    obtain ⟨ch, hch⟩ := h'.present hraw'
    rw [h.gone, if_pos hraw] at hch
    cases hch
  gone := fun raw => by
    rw [h'.gone, h.gone]
    by_cases hraw : raw ∈ removed <;> by_cases hraw' : raw ∈ removed' <;> simp [hraw, hraw']
  reported := by
    refine rel_append h.reported (h'.reported.imp ?_)
    rintro raw event ⟨ch, hch, hreport⟩
    rw [h.gone] at hch
    split at hch
    · cases hch
    · exact ⟨ch, hch, hreport⟩

/-! ## Lawful steps -/

/-- One step of the multiplexer, from `m` to `m'`, that tells the caller
`events`. -/
structure Lawful (m m' : Multiplexer) (events : List L2capEvent) : Prop where
  keyed : m'.Keyed
  /-- No channel goes back. -/
  forward : ∀ raw a b, m.stage raw = some a → m'.stage raw = some b → a ≤ b
  /-- A channel is announced exactly when it becomes open, once. -/
  announced : ∀ raw, events.countP (L2capEvent.opens raw) =
    if m.stage raw ≠ some ChannelState.open_.stage ∧ m'.stage raw = some ChannelState.open_.stage
    then 1 else 0
  data : ∀ event ∈ events, ∀ raw, event.carries raw = true →
    m.stage raw = some ChannelState.open_.stage
  /-- No data follows a report. -/
  ended : events.Pairwise fun first second => first.isReport = true → second.isData = false
  /-- The channels removed are reported, each once, and nothing else is. -/
  removed : ∃ removed, removed.Nodup ∧
    (∀ raw, raw ∈ removed ↔ m.stage raw ≠ none ∧ m'.stage raw = none) ∧
    List.Forall₂ (fun raw event => ∃ ch, m.channels raw = some ch ∧ ch.ReportedBy event)
      removed (events.filter L2capEvent.isReport)

theorem countP_opens_loud (events : List L2capEvent) (raw : UInt16) :
    (events.filter L2capEvent.isLoud).countP (L2capEvent.opens raw) =
      events.countP (L2capEvent.opens raw) := by
  rw [countP_filter]
  refine countP_congr fun event _ => ?_
  simp only [Bool.and_eq_true]
  exact ⟨fun hboth => hboth.1, fun hopens => ⟨hopens, L2capEvent.isLoud_of_opens hopens⟩⟩

theorem filter_isReport_loud (events : List L2capEvent) :
    (events.filter L2capEvent.isLoud).filter L2capEvent.isReport =
      events.filter L2capEvent.isReport := by
  rw [filter_filter]
  refine filter_congr fun event _ => ?_
  cases hreport : event.isReport with
  | false => rfl
  | true => rw [L2capEvent.isLoud_of_isReport hreport]; rfl

theorem lawful_iff_loud : Lawful m m' events ↔ Lawful m m' (events.filter L2capEvent.isLoud) := by
  constructor
  · intro h
    refine ⟨h.keyed, h.forward, fun raw => ?_, fun event hevent => ?_, h.ended.filter _, ?_⟩
    · rw [countP_opens_loud, h.announced]
    · exact h.data event (mem_of_mem_filter hevent)
    · rw [filter_isReport_loud]
      exact h.removed
  · intro h
    refine ⟨h.keyed, h.forward, fun raw => ?_, fun event hevent raw hcarries => ?_, ?_, ?_⟩
    · rw [← countP_opens_loud, h.announced]
    · have hloud := L2capEvent.isLoud_of_isData (L2capEvent.isData_of_carries hcarries)
      exact h.data event (mem_filter.mpr ⟨hevent, hloud⟩) raw hcarries
    · refine (pairwise_filter.mp h.ended).imp fun {first second} hpair hreport => ?_
      cases hdata : second.isData with
      | false => rfl
      | true =>
        have hended := hpair (L2capEvent.isLoud_of_isReport hreport)
          (L2capEvent.isLoud_of_isData hdata) hreport
        cases hended.symm.trans hdata
    · rw [← filter_isReport_loud]
      exact h.removed

theorem stage_congr (hchannels : m'.channels = m.channels) (raw : UInt16) :
    m'.stage raw = m.stage raw := by
  rw [stage, hchannels, stage]

/-- Removals, after some data of open channels. -/
theorem Removes.lawful
    (h : Removes m m' removed reports) (hkeyed : m.Keyed) (sdus : List L2capEvent)
    (hsdus : ∀ event ∈ sdus, event.isData = true)
    (hopen : ∀ event ∈ sdus, ∀ raw, event.carries raw = true →
      m.stage raw = some ChannelState.open_.stage)
    (hloud : events.filter L2capEvent.isLoud = sdus ++ reports) : Lawful m m' events := by
  have hstage (raw : UInt16) : m'.stage raw = if raw ∈ removed then none else m.stage raw := by
    rw [stage, h.gone]
    split <;> rfl
  have hreports : ∀ event ∈ reports, event.isReport = true := fun event hevent => h.isReport hevent
  have hdata : ∀ event ∈ reports, event.isData = false := fun event hevent =>
    L2capEvent.isData_of_isReport (hreports event hevent)
  refine lawful_iff_loud.mpr (hloud ▸ ⟨fun raw ch hch => ?_, fun raw a b ha hb => ?_, fun raw => ?_,
    fun event hevent raw hcarries => ?_, ?_, removed, h.nodup, fun raw => ?_, ?_⟩)
  · rw [h.gone] at hch
    split at hch
    · cases hch
    · exact hkeyed raw ch hch
  · rw [hstage] at hb
    split at hb
    · cases hb
    · exact (Option.some.inj (ha.symm.trans hb)).le
  · have hnone : ∀ event ∈ sdus ++ reports, ¬ event.opens raw = true := fun event hevent hopens => by
      rcases mem_append.mp hevent with hsdu | hreport
      · cases (L2capEvent.isData_of_opens hopens).symm.trans (hsdus event hsdu)
      · cases (L2capEvent.isReport_of_opens hopens).symm.trans (hreports event hreport)
    rw [hstage, countP_eq_zero.mpr hnone]
    split
    next => rw [if_neg (by simp)]
    next => rw [if_neg (by simp)]
  · rcases mem_append.mp hevent with hsdu | hreport
    · exact hopen event hsdu raw hcarries
    · cases (hdata event hreport).symm.trans (L2capEvent.isData_of_carries hcarries)
  · refine pairwise_append.mpr ⟨?_, ?_, fun first _ second hsecond _ => hdata second hsecond⟩
    · refine pairwise_of_forall_mem_list fun first hfirst second _ hreport => ?_
      cases (L2capEvent.isData_of_isReport hreport).symm.trans (hsdus first hfirst)
    · exact pairwise_of_forall_mem_list fun first _ second hsecond _ => hdata second hsecond
  · rw [hstage]
    by_cases hraw : raw ∈ removed
    · obtain ⟨ch, hch⟩ := h.present hraw
      simp [hraw, stage, hch]
    · simp [hraw]
  · have hsdus' : sdus.filter L2capEvent.isReport = [] := filter_eq_nil_iff.mpr
      fun event hevent hreport => by
        cases (L2capEvent.isData_of_isReport hreport).symm.trans (hsdus event hevent)
    rw [filter_append, hsdus', nil_append, filter_eq_self.mpr hreports]
    exact h.reported

/-- A step that tells nothing and leaves the channels alone. -/
theorem lawful_idle (hkeyed : m.Keyed) (hchannels : m'.channels = m.channels)
    (hloud : events.filter L2capEvent.isLoud = []) : Lawful m m' events :=
  (removes_nothing hchannels).lawful hkeyed [] (by simp) (by simp) hloud

theorem lawful_removed (hkeyed : m.Keyed) (hch : m.channels raw = some ch)
    (hchannels : m'.channels = update m.channels raw none) {report : L2capEvent}
    (hreport : ch.ReportedBy report) (hloud : events.filter L2capEvent.isLoud = [report]) :
    Lawful m m' events :=
  (removes_one hch hchannels hreport).lawful hkeyed [] (by simp) (by simp) hloud

theorem stage_update (hchannels : m'.channels = update m.channels raw (some ch'))
    (k : UInt16) : m'.stage k = if k = raw then some ch'.state.stage else m.stage k := by
  rw [stage, hchannels, update_apply]
  split <;> rfl

/-- What a step that puts `ch'` under `raw` tells about it: that it is open, if
it was not before. -/
inductive Announces (before : Option ℕ) (ch' : Channel) : List L2capEvent → Prop
  | nothing (hopen : ch'.state = .open_ → before = some ChannelState.open_.stage) :
      Announces before ch' []
  | opening (psm : Psm) (mtu : UInt16) (hopen : ch'.state = .open_)
      (hbefore : before ≠ some ChannelState.open_.stage) :
      Announces before ch' [.channelOpen ch'.localCid psm mtu]

theorem open_of_stage {state : ChannelState} (h : state.stage = ChannelState.open_.stage) :
    state = .open_ := by
  cases state <;> first | rfl | cases h

/-- A step that puts one channel into the table, new or changed. -/
theorem lawful_put (hkeyed : m.Keyed)
    (hchannels : m'.channels = update m.channels raw (some ch'))
    (hcid : ch'.localCid.raw = raw)
    (hforward : ∀ ch, m.channels raw = some ch → ch.state.stage ≤ ch'.state.stage)
    (hannounces : Announces (m.stage raw) ch' (events.filter L2capEvent.isLoud)) :
    Lawful m m' events := by
  have hstage := stage_update hchannels
  have hkept (k : UInt16) : m'.stage k = none → m.stage k = none := by
    rw [hstage]
    split
    · exact fun h => nomatch h
    · exact id
  generalize hloud : events.filter L2capEvent.isLoud = loud at hannounces
  have hsilent : ∀ event ∈ loud, event.isReport = false ∧ event.isData = false := by
    cases hannounces with
    | nothing => simp
    | opening => simp [L2capEvent.isReport, L2capEvent.isData]
  refine lawful_iff_loud.mpr (hloud ▸ ⟨hkeyed.update hchannels hcid, fun k a b ha hb => ?_, fun k => ?_,
    fun event hevent k hcarries => ?_, ?_, [], nodup_nil, fun k => ?_, ?_⟩)
  · rw [hstage] at hb
    split at hb
    next hk =>
      subst hk
      obtain ⟨ch, hch, rfl⟩ := Option.map_eq_some_iff.mp ha
      cases hb
      exact hforward ch hch
    next => exact (Option.some.inj (ha.symm.trans hb)).le
  · rw [hstage]
    by_cases hk : k = raw
    · subst hk
      rw [if_pos rfl]
      cases hannounces with
      | nothing hopen =>
        rw [if_neg fun h => h.1 (hopen (open_of_stage (Option.some.inj h.2)))]
        rfl
      | opening psm mtu hopen hbefore =>
        rw [if_pos ⟨hbefore, by rw [hopen]⟩]
        simp [L2capEvent.opens, hcid]
    · rw [if_neg hk, if_neg fun h => h.1 h.2]
      cases hannounces with
      | nothing => rfl
      | opening => simp [L2capEvent.opens, hcid, Ne.symm hk]
  · cases (hsilent event hevent).2.symm.trans (L2capEvent.isData_of_carries hcarries)
  · exact pairwise_of_forall_mem_list fun first _ second hsecond _ => (hsilent second hsecond).2
  · simp only [not_mem_nil, false_iff]
    exact fun h => h.1 (hkept k h.2)
  · rw [filter_eq_nil_iff.mpr fun event hevent => by simp [(hsilent event hevent).1]]
    exact .nil

theorem proposed_channels (hset : m'.channels = update m.channels raw (some ch)) :
    (m'.proposed raw ch).channels =
      update m.channels raw (some (ch.proposing m'.nextId)) := by
  change update m'.channels raw (some (ch.proposing m'.nextId)) = _
  rw [hset, update_idem]

/-! ## Commands of the peer -/

/-- The events of an outcome.  A failure tells the caller nothing else. -/
def told : Except L2capError (List L2capEvent) → List L2capEvent
  | .ok events => events
  | .error _ => []

/-- The connection response does not send a channel back. -/
def keepsForward (m : Multiplexer) : Signal → Bool
  | .connectionRequest _ psm _ =>
    !(m.listening.any fun entry => entry.1 = psm) || m.allocCid.2.toBool
  | .connectionResponse id _ sourceCid result _ =>
    result ≠ .success ||
      (m.channels (m.responseChannel id sourceCid)).all fun ch =>
        ch.state.stage ≤ (ChannelState.waitConfig false false).stage
  | _ => true

abbrev LawfulOutcome (m : Multiplexer)
    (outcome : Multiplexer × Except L2capError (List L2capEvent)) : Prop :=
  Lawful m outcome.1 (told outcome.2)

theorem filter_signal (sig : Signal) :
    (signal sig).toOption.toList.filter L2capEvent.isLoud = [] := by
  unfold signal
  cases sig.encode <;> rfl

theorem told_reply (sig : Signal) : (told (m.reply sig).2).filter L2capEvent.isLoud = [] := by
  unfold reply signal
  cases sig.encode with
  | error e | ok payload => rfl

theorem lawful_reply (hkeyed : m.Keyed) (sig : Signal) : LawfulOutcome m (m.reply sig) :=
  lawful_idle hkeyed rfl (told_reply sig)

theorem lawful_onConnectionRequest (hkeyed : m.Keyed) (id : UInt8) (psm : Psm) (sourceCid : Cid) :
    LawfulOutcome m (m.onConnectionRequest id psm sourceCid) := by
  refine onConnectionRequest_cases (P := LawfulOutcome m) (lawful_reply hkeyed _)
    (fun next => lawful_idle hkeyed rfl rfl) (fun next localCid mode hfree => ?_)
  refine lawful_put hkeyed (proposed_channels rfl) rfl ?_ (.nothing nofun)
  intro ch hch
  cases hfree.symm.trans hch

theorem lawful_onConnectionResponse (hkeyed : m.Keyed) {id : UInt8} {destCid sourceCid : Cid}
    {result : ConnectionResult}
    (hforward : result = .success → ∀ ch, m.channels (m.responseChannel id sourceCid) = some ch →
      ch.state.stage ≤ (ChannelState.waitConfig false false).stage) :
    LawfulOutcome m (m.onConnectionResponse id destCid sourceCid result) := by
  refine onConnectionResponse_cases (P := LawfulOutcome m)
    (fun _ => lawful_idle hkeyed rfl rfl)
    (fun ch hch _ _ => lawful_removed hkeyed hch rfl (.refused result) rfl)
    (fun ch hch hsuccess => ?_)
  refine lawful_put hkeyed (proposed_channels rfl) (hkeyed _ ch hch) ?_ (.nothing nofun)
  exact fun ch hch => hforward hsuccess ch hch

theorem Promotion.kept (h : Promotion m raw ch m' ch' events) :
    ch'.localCid = ch.localCid ∧ ch'.psm = ch.psm ∧ ch.state.stage ≤ ch'.state.stage := by
  cases h with
  | waiting => exact ⟨rfl, rfl, le_rfl⟩
  | opened hstate => exact ⟨rfl, rfl, by rw [hstate]; exact Nat.le_succ 1⟩

theorem Promotion.channels (h : Promotion m raw ch m' ch' events)
    (hset : m.channels = update m''.channels raw (some ch)) :
    m'.channels = update m''.channels raw (some ch') := by
  cases h with
  | waiting => exact hset
  | opened => rw [opened_channels, hset, update_idem]

theorem stage_of_some (hch : m.channels raw = some ch) : m.stage raw = some ch.state.stage := by
  rw [stage, hch, Option.map_some]

theorem lawful_failChannel (hkeyed : m.Keyed) (cid : Cid) :
    Lawful m (m.failChannel cid).1 (m.failChannel cid).2 := by
  cases hch : m.channels cid.raw with
  | none =>
    rw [failChannel_none hch]
    exact lawful_idle hkeyed rfl rfl
  | some ch =>
    rw [failChannel_some hch]
    exact lawful_removed hkeyed hch rfl .closed rfl

theorem lawful_closeChannel (hkeyed : m.Keyed) (raw : UInt16) :
    Lawful m (m.closeChannel raw).1 (m.closeChannel raw).2 := by
  cases hch : m.channels raw with
  | none =>
    rw [closeChannel_none hch]
    exact lawful_idle hkeyed rfl rfl
  | some ch =>
    rw [closeChannel_some hch]
    exact lawful_removed hkeyed hch rfl .closed rfl

/-- A channel whose configuration is given up, whatever was written to it
before. -/
theorem lawful_failConfiguration (hkeyed : m.Keyed) {cid : Cid} (hch : m.channels cid.raw = some ch)
    (hset : m'.channels = update m.channels cid.raw (some ch'))
    (hcid : ch'.localCid = ch.localCid) (hpsm : ch'.psm = ch.psm) :
    Lawful m (m'.failConfiguration cid).1 (m'.failConfiguration cid).2 := by
  have hch' : m'.channels cid.raw = some ch' := by rw [hset, update_self]
  rw [failConfiguration_some hch', hcid, hpsm]
  refine lawful_removed hkeyed hch ?_ .closed rfl
  change update m'.channels cid.raw none = _
  rw [hset, update_idem]

theorem stage_setIncomingDone (ch : Channel) :
    ch.setIncomingDone.state.stage = ch.state.stage ∧ ch.setIncomingDone.localCid = ch.localCid ∧
      ch.setIncomingDone.psm = ch.psm := by
  unfold Channel.setIncomingDone
  split
  next hstate => exact ⟨by rw [hstate]; rfl, rfl, rfl⟩
  next => exact ⟨rfl, rfl, rfl⟩

theorem stage_setOutgoingDone (ch : Channel) :
    ch.setOutgoingDone.state.stage = ch.state.stage ∧ ch.setOutgoingDone.localCid = ch.localCid ∧
      ch.setOutgoingDone.psm = ch.psm := by
  unfold Channel.setOutgoingDone
  split
  next hstate => exact ⟨by rw [hstate]; rfl, rfl, rfl⟩
  next => exact ⟨rfl, rfl, rfl⟩

/-- A handler that writes `ch₁` over `ch`, at the same stage, and then may
promote it. -/
theorem lawful_promotion {m₂ : Multiplexer} {ch₁ ch₂ : Channel} {promoted : List L2capEvent}
    (hkeyed : m.Keyed) (hch : m.channels raw = some ch)
    (hstage : ch₁.state.stage = ch.state.stage) (hcid : ch₁.localCid = ch.localCid)
    (hpromotion : Promotion m' raw ch₁ m₂ ch₂ promoted)
    (hchannels : m''.channels = update m.channels raw (some ch'))
    (hstate : ch'.state = ch₂.state) (hcid' : ch'.localCid = ch₂.localCid)
    (hloud : events.filter L2capEvent.isLoud = promoted.filter L2capEvent.isLoud) :
    Lawful m m'' events := by
  obtain ⟨hcid₂, -, hforward⟩ := hpromotion.kept
  have hbefore : m.stage raw = some ch₁.state.stage := by rw [stage_of_some hch, hstage]
  refine lawful_put hkeyed hchannels ?_ (fun ch₀ hch₀ => ?_) ?_
  · rw [hcid', hcid₂, hcid, hkeyed raw ch hch]
  · obtain rfl : ch = ch₀ := Option.some.inj (hch.symm.trans hch₀)
    rw [hstate, ← hstage]
    exact hforward
  · rw [hloud, hbefore]
    cases hpromotion with
    | waiting => exact .nothing fun hopen => by rw [← hstate, hopen]
    | opened hready =>
      have hopening : Announces (some ch₁.state.stage) ch'
          [.channelOpen ch'.localCid ch₁.psm ch₁.remoteMtu] :=
        .opening _ _ hstate (by rw [hready]; exact fun h => nomatch h)
      rw [hcid'] at hopening
      exact hopening

theorem adopt_kept (ch : Channel) (basicMtu receiveMps : UInt16) (options : List ConfigOption) :
    (ch.adopt basicMtu receiveMps options).state = ch.state ∧
      (ch.adopt basicMtu receiveMps options).localCid = ch.localCid ∧
      (ch.adopt basicMtu receiveMps options).psm = ch.psm := by
  rw [Channel.adopt_eq]
  exact ⟨rfl, rfl, rfl⟩

theorem lawful_onConfigRequest (hkeyed : m.Keyed) (id : UInt8) (destCid : Cid) (flags : UInt16)
    (options : List ConfigOption) : LawfulOutcome m (m.onConfigRequest id destCid flags options) := by
  unfold onConfigRequest
  cases hch : m.channels destCid.raw with
  | none => exact lawful_reply hkeyed _
  | some ch =>
    dsimp only
    cases ch.refusal m.receiveMps options with
    | some refusal => exact lawful_reply hkeyed _
    | none =>
      obtain ⟨hstate, hcid, hpsm⟩ := adopt_kept ch m.localMtu m.receiveMps options
      obtain ⟨hstage', hcid', hpsm'⟩ :=
        stage_setIncomingDone (ch.adopt m.localMtu m.receiveMps options)
      rw [hstate] at hstage'
      rw [hcid] at hcid'
      rw [hpsm] at hpsm'
      refine acceptConfigRequest_cases (P := LawfulOutcome m)
        (fun _ => ?_) (fun m₂ ch₂ events _ hpromotion _ => ?_)
        (fun m₂ ch₂ events _ hpromotion _ _ _ => ?_)
        (fun m₂ ch₂ events _ hpromotion _ _ _ => ?_)
      · refine lawful_put hkeyed rfl (hcid ▸ hkeyed _ ch hch) (fun ch₀ hch₀ => ?_)
          (.nothing fun hopen => ?_)
        · obtain rfl : ch = ch₀ := Option.some.inj (hch.symm.trans hch₀)
          rw [hstate]
        · rw [stage_of_some hch, ← hstate, hopen]
      · exact lawful_promotion hkeyed hch hstage' hcid' hpromotion (hpromotion.channels rfl)
          rfl rfl rfl
      · obtain ⟨hcid₂, hpsm₂, -⟩ := hpromotion.kept
        exact lawful_failConfiguration hkeyed hch (hpromotion.channels rfl)
          (hcid₂.trans hcid') (hpsm₂.trans hpsm')
      · refine lawful_promotion hkeyed hch hstage' hcid' hpromotion
          (proposed_channels (hpromotion.channels rfl)) rfl rfl ?_
        simp [told, L2capEvent.isLoud]

theorem lawful_onConfigResponse (hkeyed : m.Keyed) (id : UInt8) (sourceCid : Cid)
    (result : ConfigResult) (options : List ConfigOption) (retired : Option Outstanding) :
    LawfulOutcome m (m.onConfigResponse id sourceCid result options retired) := by
  refine onConfigResponse_cases (P := LawfulOutcome m) (fun _ => lawful_idle hkeyed rfl rfl)
    (fun ch hch _ _ _ => ?_) (fun ch hch _ _ _ => ?_) (fun ch hch _ _ => ?_)
    (fun ch hch _ _ m₂ ch₂ events hpromotion => ?_) (fun ch hch _ _ _ _ => ?_)
  · obtain ⟨localMtu, hcounter⟩ := ch.adoptCounter_eq m.localMtu options
    exact lawful_failConfiguration hkeyed hch rfl (by rw [hcounter]) (by rw [hcounter])
  · obtain ⟨localMtu, hcounter⟩ := ch.adoptCounter_eq m.localMtu options
    rw [hcounter]
    refine lawful_put hkeyed (proposed_channels rfl) (hkeyed _ ch hch) (fun ch₀ hch₀ => ?_)
      (.nothing fun hopen => ?_)
    · obtain rfl : ch = ch₀ := Option.some.inj (hch.symm.trans hch₀)
      exact le_rfl
    · rw [stage_of_some hch]
      exact congrArg (fun state => some state.stage) hopen
  · rw [Channel.foldl_readPendingOption]
    have hput : LawfulOutcome m (m.setChannel sourceCid.raw { ch with parameters :=
        { ch.parameters with
          fcs := (lastOf ConfigOption.fcs? options).getD ch.parameters.fcs } }, .ok []) := by
      refine lawful_put hkeyed rfl (hkeyed _ ch hch) (fun ch₀ hch₀ => ?_)
        (.nothing fun hopen => ?_)
      · obtain rfl : ch = ch₀ := Option.some.inj (hch.symm.trans hch₀)
        exact le_rfl
      · rw [stage_of_some hch]
        exact congrArg (fun state => some state.stage) hopen
    cases retired with
    | none => exact hput
    | some out => exact ⟨hput.1, hput.2, hput.3, hput.4, hput.5, hput.6⟩
  · obtain ⟨parameters, -, -, hread⟩ := ch.foldl_readAnswerOption options
    rw [hread] at hpromotion
    obtain ⟨hstage', hcid', -⟩ :=
      stage_setOutgoingDone { ch with parameters, configId := none }
    exact lawful_promotion hkeyed hch hstage' hcid' hpromotion (hpromotion.channels rfl) rfl rfl rfl
  · exact lawful_failConfiguration hkeyed hch (Function.update_eq_self_iff.mpr hch.symm).symm
      rfl rfl

theorem Lawful.congr (h : Lawful m' m'' events) (hchannels : m'.channels = m.channels) :
    Lawful m m'' events := by
  have hstage (raw : UInt16) : m.stage raw = m'.stage raw := stage_congr hchannels.symm raw
  refine ⟨h.keyed, fun raw => hstage raw ▸ h.forward raw, fun raw => hstage raw ▸ h.announced raw,
    fun event hevent raw => hstage raw ▸ h.data event hevent raw, h.ended, ?_⟩
  obtain ⟨removed, hnodup, hgone, hreported⟩ := h.removed
  exact ⟨removed, hnodup, fun raw => hstage raw ▸ hgone raw, hchannels ▸ hreported⟩

theorem lawful_dispatch (hkeyed : m.Keyed) {sig : Signal} (retired : Option Outstanding)
    (hforward : m.keepsForward sig = true) : LawfulOutcome m (m.dispatch sig retired) := by
  cases sig with
  | connectionRequest id psm sourceCid => exact lawful_onConnectionRequest hkeyed id psm sourceCid
  | connectionResponse id destCid sourceCid result status =>
    refine lawful_onConnectionResponse hkeyed fun hsuccess ch hch => ?_
    simpa [keepsForward, hsuccess, hch] using hforward
  | configurationRequest id destCid flags options =>
    exact lawful_onConfigRequest hkeyed id destCid flags options
  | configurationResponse id sourceCid flags result options =>
    exact lawful_onConfigResponse hkeyed id sourceCid result options retired
  | disconnectionRequest id destCid sourceCid =>
    simp only [dispatch, signal_disconnectionResponse, andThen_ok]
    have hclosed := lawful_iff_loud.mp (lawful_closeChannel hkeyed destCid.raw)
    exact lawful_iff_loud.mpr hclosed
  | disconnectionResponse id destCid sourceCid => exact lawful_closeChannel hkeyed sourceCid.raw
  | commandReject id reason data =>
    cases retired with
    | none => exact lawful_idle hkeyed rfl rfl
    | some out =>
      have hanswered : (m.removePending id).Keyed := hkeyed.congr rfl
      exact (lawful_failChannel hanswered ⟨out.rawCid⟩).congr rfl
  | echoRequest | informationRequest => exact lawful_reply hkeyed _
  | echoResponse | informationResponse => exact lawful_idle hkeyed rfl rfl

theorem lawful_handleSignal (hkeyed : m.Keyed) {sig : Signal}
    (hforward : m.keepsForward sig = true) : LawfulOutcome m (m.handleSignal sig) := by
  unfold handleSignal
  cases sig.answers with
  | none => exact lawful_dispatch hkeyed none hforward
  | some id =>
    have hretired : (m.removeOutstanding id).Keyed := hkeyed.congr rfl
    have hkeeps : (m.removeOutstanding id).keepsForward sig = true := by
      rw [← hforward]
      cases sig <;> rfl
    exact (lawful_dispatch hretired (m.outstanding id) hkeeps).congr rfl

/-! ## Calls of the owner -/

theorem filter_sendAll (remoteCid : Cid) (frames : List Bytes) :
    (sendAll remoteCid frames).filter L2capEvent.isLoud = [] := by
  refine filter_eq_nil_iff.mpr fun event hevent => ?_
  obtain ⟨frame, -, rfl⟩ := mem_map.mp hevent
  simp [L2capEvent.isLoud]

/-- Giving a channel up, as a removal: it was there or it was not. -/
theorem removes_failChannel (m : Multiplexer) (cid : Cid) : ∃ removed reports,
    Removes m (m.failChannel cid).1 removed reports ∧
      (m.failChannel cid).2.filter L2capEvent.isLoud = reports := by
  cases hch : m.channels cid.raw with
  | none =>
    rw [failChannel_none hch]
    exact ⟨[], [], removes_nothing rfl, rfl⟩
  | some ch =>
    rw [failChannel_some hch]
    exact ⟨[cid.raw], [.channelClosed ch.localCid ch.psm], removes_one hch rfl .closed, rfl⟩

theorem removes_failEach (cids : List Cid) (m : Multiplexer) (events : List L2capEvent) :
    ∃ removed reports, Removes m (failEach cids m events).1 removed reports ∧
      (failEach cids m events).2.filter L2capEvent.isLoud =
        events.filter L2capEvent.isLoud ++ reports := by
  induction cids generalizing m events with
  | nil => exact ⟨[], [], removes_nothing rfl, (append_nil _).symm⟩
  | cons cid rest ih =>
    obtain ⟨removed, reports, hfirst, hloud⟩ := removes_failChannel m cid
    obtain ⟨removed', reports', hrest, hloud'⟩ :=
      ih (m.failChannel cid).1 (events ++ (m.failChannel cid).2)
    refine ⟨removed ++ removed', reports ++ reports', hfirst.append hrest, ?_⟩
    rw [filter_append, hloud, append_assoc] at hloud'
    exact hloud'

theorem lawful_handleData (hkeyed : m.Keyed) (pdu : L2capPdu) :
    LawfulOutcome m (m.handleData pdu) := by
  unfold handleData
  cases hch : m.channels pdu.cid.raw with
  | none => exact lawful_idle hkeyed rfl rfl
  | some ch =>
    have hcid := hkeyed _ ch hch
    dsimp only
    split
    next => exact lawful_idle hkeyed rfl rfl
    next hopen =>
      have hstage : m.stage pdu.cid.raw = some ChannelState.open_.stage := by
        rw [stage_of_some hch, not_not.mp hopen]
      have hcarries (event : L2capEvent) (psm : Psm) (payload : Bytes)
          (hevent : event = .data ch.localCid psm payload) (raw : UInt16)
          (hraw : event.carries raw = true) : m.stage raw = some ChannelState.open_.stage := by
        subst hevent
        simp only [L2capEvent.carries, decide_eq_true_eq] at hraw
        rw [← hraw, hcid, hstage]
      cases hertm : m.ertm pdu.cid.raw with
      | none =>
        refine (removes_nothing rfl).lawful hkeyed [.data ch.localCid ch.psm pdu.payload]
          ?_ ?_ rfl
        · simp [L2capEvent.isData]
        · intro event hevent
          exact hcarries event ch.psm pdu.payload (mem_singleton.mp hevent)
      | some ertm =>
        dsimp only
        split
        · exact lawful_idle hkeyed rfl rfl
        next ertm' out hreceive =>
          have hsdus : ∀ event ∈ out.sdus.map (L2capEvent.data ch.localCid ch.psm),
              event.isData = true := by
            simp [L2capEvent.isData]
          have hfrom : ∀ event ∈ out.sdus.map (L2capEvent.data ch.localCid ch.psm), ∀ raw,
              event.carries raw = true → m.stage raw = some ChannelState.open_.stage := by
            intro event hevent
            obtain ⟨sdu, -, rfl⟩ := mem_map.mp hevent
            exact hcarries _ ch.psm sdu rfl
          have hloud : (sendAll ch.remoteCid out.frames ++
              out.sdus.map (L2capEvent.data ch.localCid ch.psm)).filter L2capEvent.isLoud =
              out.sdus.map (L2capEvent.data ch.localCid ch.psm) := by
            rw [filter_append, filter_sendAll, nil_append, filter_eq_self]
            exact fun event hevent => L2capEvent.isLoud_of_isData (hsdus event hevent)
          split
          · obtain ⟨removed, reports, hremoves, hreports⟩ :=
              removes_failChannel (m.setErtm pdu.cid.raw ertm') ch.localCid
            have hremoves' : Removes m ((m.setErtm pdu.cid.raw ertm').failChannel
                ch.localCid).1 removed reports := ⟨hremoves.1, hremoves.2, hremoves.3⟩
            refine hremoves'.lawful hkeyed _ hsdus hfrom ?_
            rw [told, filter_append, hloud, hreports]
          · have hkept : Removes m (m.setErtm pdu.cid.raw ertm') [] [] := removes_nothing rfl
            refine hkept.lawful hkeyed _ hsdus hfrom ?_
            rw [append_nil]
            exact hloud

theorem lawful_send (hkeyed : m.Keyed) (cid : Cid) (payload : Bytes) :
    LawfulOutcome m (m.send cid payload) := by
  unfold send
  cases m.channels cid.raw with
  | none => exact lawful_idle hkeyed rfl rfl
  | some ch =>
    dsimp only
    split
    · exact lawful_idle hkeyed rfl rfl
    split
    · exact lawful_idle hkeyed rfl rfl
    cases m.ertm cid.raw with
    | none => exact lawful_idle hkeyed rfl rfl
    | some ertm =>
      dsimp only
      split
      · exact lawful_idle hkeyed rfl rfl
      next ertm' out hsend =>
        split
        · have hset : (m.setErtm cid.raw ertm').Keyed := hkeyed.congr rfl
          have hfail := lawful_iff_loud.mp (lawful_failChannel hset cid)
          refine lawful_iff_loud.mpr ?_
          rw [told, filter_append, filter_sendAll, nil_append]
          exact hfail.congr rfl
        · exact lawful_idle hkeyed rfl (filter_sendAll _ _)

theorem lawful_connectWith (hkeyed : m.Keyed) (psm : Psm) (mode : ChannelMode) :
    LawfulOutcome m (m.perform (.connectWith psm mode)) := by
  refine connectWith_cases (m := m)
    (Q := fun outcome => LawfulOutcome m (outcome.1, outcome.2.map fun dialled => dialled.2))
    (fun next => lawful_idle hkeyed rfl rfl) (fun next localCid hfree => ?_)
  refine lawful_put hkeyed rfl rfl (fun ch hch => ?_) (.nothing nofun)
  cases hfree.symm.trans hch

theorem stage_le_waitDisconnect (state : ChannelState) :
    state.stage ≤ ChannelState.waitDisconnect.stage := by
  cases state <;> simp [ChannelState.stage]

theorem lawful_disconnect (hkeyed : m.Keyed) (cid : Cid) : LawfulOutcome m (m.disconnect cid) := by
  cases hch : m.channels cid.raw with
  | none =>
    rw [disconnect_none hch]
    exact lawful_idle hkeyed rfl rfl
  | some ch =>
    rw [disconnect_some hch]
    exact lawful_put hkeyed rfl (hkeyed _ ch hch) (fun _ _ => stage_le_waitDisconnect _)
      (.nothing nofun)

theorem removes_linkDown (horder : Lists order m.channels) :
    Removes m (m.linkDown order).1 order (m.linkDown order).2 where
  nodup := horder.nodup
  gone := fun raw => by
    split
    next => rfl
    next hraw => exact (Option.not_isSome_iff_eq_none.mp (mt (horder.mem raw).mpr hraw)).symm
  reported := by
    have hpresent : ∀ raw ∈ order, (m.channels raw).isSome = true :=
      fun raw hraw => (horder.mem raw).mp hraw
    clear horder
    unfold linkDown
    dsimp only
    induction order with
    | nil => exact .nil
    | cons raw rest ih =>
      obtain ⟨ch, hch⟩ := Option.isSome_iff_exists.mp (hpresent raw mem_cons_self)
      rw [filterMap_cons, hch]
      exact .cons ⟨ch, hch, .closed⟩ (ih fun raw hraw => hpresent raw (mem_cons_of_mem _ hraw))

theorem lawful_linkDown (hkeyed : m.Keyed)
    (horder : Lists order m.channels) : LawfulOutcome m (m.perform (.linkDown order)) := by
  have hremoves := removes_linkDown horder
  refine hremoves.lawful hkeyed [] (by simp) (by simp) (filter_eq_self.mpr fun event hevent => ?_)
  exact L2capEvent.isLoud_of_isReport (hremoves.isReport hevent)

/-- Time running out sends requests again, and touches no channel. -/
theorem expire_quiet (m : Multiplexer) (ticking : Ticking) (id : UInt8) :
    (m.expire ticking id).1.channels = m.channels ∧
      (m.expire ticking id).2.events.filter L2capEvent.isLoud =
        ticking.events.filter L2capEvent.isLoud := by
  unfold expire
  split
  · exact ⟨rfl, rfl⟩
  · split
    · exact ⟨rfl, by rw [filter_append, filter_signal, append_nil]⟩
    · exact ⟨rfl, rfl⟩

theorem tickErtm_quiet (elapsed : ℕ) (m : Multiplexer) (ticking : Ticking) (raw : UInt16) :
    (tickErtm elapsed m ticking raw).1.channels = m.channels ∧
      (tickErtm elapsed m ticking raw).2.events.filter L2capEvent.isLoud =
        ticking.events.filter L2capEvent.isLoud := by
  unfold tickErtm
  split
  · exact ⟨rfl, rfl⟩
  dsimp only
  split
  · exact ⟨rfl, rfl⟩
  · exact ⟨rfl, by rw [filter_append, filter_sendAll, append_nil]⟩

theorem foldl_quiet {α : Type} {step : Multiplexer × Ticking → α → Multiplexer × Ticking}
    (hquiet : ∀ acc x, (step acc x).1.channels = acc.1.channels ∧
      (step acc x).2.events.filter L2capEvent.isLoud = acc.2.events.filter L2capEvent.isLoud)
    (xs : List α) (acc : Multiplexer × Ticking) : (xs.foldl step acc).1.channels = acc.1.channels ∧
      (xs.foldl step acc).2.events.filter L2capEvent.isLoud =
        acc.2.events.filter L2capEvent.isLoud :=
  ⟨foldl_keeps (fun acc => acc.1.channels) (fun acc x => (hquiet acc x).1) xs acc,
    foldl_keeps (fun acc => acc.2.events.filter L2capEvent.isLoud)
      (fun acc x => (hquiet acc x).2) xs acc⟩

theorem lawful_tick (hkeyed : m.Keyed) (ids : List UInt8) (raws : List UInt16) (elapsed : ℕ) :
    LawfulOutcome m (m.perform (.tick ids raws elapsed)) := by
  obtain ⟨hchannels, hloud⟩ := foldl_quiet (fun acc id => expire_quiet acc.1 acc.2 id)
    (ids.filter (m.passTime elapsed).hasExpired) (m.passTime elapsed, {})
  generalize hexpired : (ids.filter (m.passTime elapsed).hasExpired).foldl
    (fun acc id => expire acc.1 acc.2 id) (m.passTime elapsed, {}) = expired at hchannels hloud
  obtain ⟨hchannels', hloud'⟩ := foldl_quiet
    (fun acc raw => tickErtm_quiet elapsed acc.1 acc.2 raw) raws expired
  generalize hticked : raws.foldl (fun acc raw => tickErtm elapsed acc.1 acc.2 raw) expired =
    ticked at hchannels' hloud'
  obtain ⟨removed, reports, hremoves, hreports⟩ :=
    removes_failEach ticked.2.failed ticked.1 ticked.2.events
  have hticked₁ : ticked.1.channels = m.channels := hchannels'.trans hchannels
  have hkeyed₁ : ticked.1.Keyed := hkeyed.congr hticked₁
  have hlawful := (hremoves.lawful hkeyed₁ [] (by simp) (by simp) (by
    rw [hreports, hloud', hloud]
    rfl)).congr hticked₁
  have htick : m.tick ids raws elapsed = failEach ticked.2.failed ticked.1 ticked.2.events := by
    rw [← hticked, ← hexpired]
    rfl
  rw [← htick] at hlawful
  exact hlawful

/-! ## Moves -/

end Multiplexer

/-- One step of a run: what the owner does, or what one command of the peer
brings about. -/
inductive MuxMove where
  /-- The refusals owed for the commands of a frame that did not parse. -/
  | refuse (refusals : List CommandRefusal)
  | command (sig : Signal)
  | data (pdu : L2capPdu)
  | call (call : Call)

/-- The moves of a call.  A frame is its refusals and then its commands. -/
def Call.moves : Call → List MuxMove
  | .handlePdu pdu =>
    if pdu.cid = .signaling then
      .refuse (Signal.decodeFrame pdu.payload).rejects ::
        (Signal.decodeFrame pdu.payload).signals.map .command
    else [.data pdu]
  | call => [.call call]

namespace Multiplexer

variable {m : Multiplexer} {ch : Channel}

/-- Make a move: the state it leaves, and what the caller is told of it. -/
def make (m : Multiplexer) : MuxMove → Multiplexer × List L2capEvent
  | .refuse refusals => (m, told (rejectAll refusals))
  | .command sig => ((m.handleSignal sig).1, told (m.handleSignal sig).2)
  | .data pdu => ((m.handleData pdu).1, told (m.handleData pdu).2)
  | .call call => ((m.perform call).1, told (m.perform call).2)

def follow (m : Multiplexer) (moves : List MuxMove) : Multiplexer :=
  moves.foldl (fun m move => (m.make move).1) m

def toldOf : List MuxMove → Multiplexer → List L2capEvent
  | [], _ => []
  | move :: rest, m => (m.make move).2 ++ toldOf rest (m.make move).1

def toldBy : List Call → Multiplexer → List L2capEvent
  | [], _ => []
  | call :: rest, m => told (m.perform call).2 ++ toldBy rest (m.perform call).1

theorem toldOf_append (moves moves' : List MuxMove) (m : Multiplexer) :
    toldOf (moves ++ moves') m = toldOf moves m ++ toldOf moves' (m.follow moves) := by
  induction moves generalizing m with
  | nil => rfl
  | cons move rest ih =>
    rw [cons_append, toldOf, ih, toldOf, append_assoc]
    rfl

/-- What a move must meet: a connection response sends no channel back, the
link goes down with all its channels, and a PDU comes as moves of its own. -/
def Permitted (m : Multiplexer) : MuxMove → Prop
  | .command sig => m.keepsForward sig = true
  | .call (.linkDown order) => Lists order m.channels
  | .call (.handlePdu _) => False
  | _ => True

theorem lawful_make (hkeyed : m.Keyed) {move : MuxMove} (hpermitted : m.Permitted move) :
    Lawful m (m.make move).1 (m.make move).2 := by
  cases move with
  | refuse refusals =>
    refine lawful_idle hkeyed rfl (filter_eq_nil_iff.mpr fun event hevent => ?_)
    rw [make, rejectAll_eq] at hevent
    obtain ⟨refusal, -, rfl⟩ := mem_map.mp hevent
    simp [L2capEvent.isLoud]
  | command sig => exact lawful_handleSignal hkeyed hpermitted
  | data pdu => exact lawful_handleData hkeyed pdu
  | call call =>
    cases call with
    | listenWith psm mode =>
      refine lawful_idle hkeyed ?_ rfl
      change (m.listenWith psm mode).channels = m.channels
      unfold listenWith
      split <;> rfl
    | connectWith psm mode => exact lawful_connectWith hkeyed psm mode
    | send cid payload => exact lawful_send hkeyed cid payload
    | disconnect cid => exact lawful_disconnect hkeyed cid
    | linkDown order => exact lawful_linkDown hkeyed hpermitted
    | tick ids raws elapsed => exact lawful_tick hkeyed ids raws elapsed
    | handlePdu pdu => exact hpermitted.elim

/-! ## Every command of a frame is acted on

Under the condition no handler fails, so a frame is all of its moves. -/

abbrev Succeeds (outcome : Multiplexer × Except L2capError (List L2capEvent)) : Prop :=
  ∃ events, outcome.2 = .ok events

theorem succeeds_reply {sig : Signal} (h : sig.body.length ≤ 65535) : Succeeds (m.reply sig) := by
  unfold reply
  rw [signal_eq h]
  exact ⟨_, rfl⟩

theorem succeeds_onConnectionRequest {id : UInt8} {psm : Psm} {sourceCid : Cid}
    (hforward : m.keepsForward (.connectionRequest id psm sourceCid) = true) :
    Succeeds (m.onConnectionRequest id psm sourceCid) := by
  unfold onConnectionRequest
  cases hlistening : m.listening.find? fun entry => entry.1 = psm with
  | none => exact succeeds_reply (by simp [Signal.body])
  | some entry =>
    have hany : (m.listening.any fun entry => entry.1 = psm) = true :=
      any_eq_true.mpr (List.find?_isSome.mp (by rw [hlistening]; rfl))
    have halloc : m.allocCid.2.toBool = true := by simpa [keepsForward, hany] using hforward
    dsimp only
    generalize m.allocCid = allocated at halloc
    obtain ⟨m', error | localCid⟩ := allocated
    · cases halloc
    · rw [andThen_ok, signal_connectionResponse, andThen_ok,
        requestConfiguration_some (update_self ..), andThen_ok]
      exact ⟨_, rfl⟩

theorem length_refusal {receiveMps : UInt16} {options answer : List ConfigOption}
    {result : ConfigResult} (h : ch.refusal receiveMps options = some (result, answer)) :
    (answer.flatMap ConfigOption.encode).length ≤
      max (options.flatMap ConfigOption.encode).length 11 := by
  unfold Channel.refusal at h
  dsimp only at h
  split at h
  · cases h
    refine le_max_of_le_left ?_
    exact (List.filter_sublist.flatMap ConfigOption.encode).length_le
  split at h
  · cases h
    exact le_max_of_le_right (by decide)
  split at h
  · cases h
    refine le_max_of_le_right ?_
    split <;> exact le_of_eq rfl
  · cases h

theorem succeeds_onConfigRequest (m : Multiplexer) (id : UInt8) (destCid : Cid) (flags : UInt16)
    {options : List ConfigOption}
    (hlength : 6 + (options.flatMap ConfigOption.encode).length ≤ 65535) :
    Succeeds (m.onConfigRequest id destCid flags options) := by
  unfold onConfigRequest
  cases m.channels destCid.raw with
  | none => exact succeeds_reply (by simp [Signal.body])
  | some ch =>
    dsimp only
    cases hrefusal : ch.refusal m.receiveMps options with
    | some refusal =>
      have hanswer := length_refusal hrefusal
      refine succeeds_reply ?_
      simp only [Signal.body, length_append, length_putU16Le]
      omega
    | none =>
      exact acceptConfigRequest_cases (P := Succeeds) (fun _ => ⟨_, rfl⟩)
        (fun _ _ _ _ _ _ => ⟨_, rfl⟩) (fun _ _ _ _ _ _ _ _ => ⟨_, rfl⟩)
        (fun _ _ _ _ _ _ _ _ => ⟨_, rfl⟩)

theorem succeeds_dispatch {sig : Signal} (retired : Option Outstanding)
    (hforward : m.keepsForward sig = true) (hlength : sig.answerLength ≤ 65535) :
    Succeeds (m.dispatch sig retired) := by
  cases sig with
  | connectionRequest id psm sourceCid => exact succeeds_onConnectionRequest hforward
  | connectionResponse id destCid sourceCid result status =>
    exact onConnectionResponse_cases (P := Succeeds) (fun _ => ⟨_, rfl⟩)
      (fun _ _ _ _ => ⟨_, rfl⟩) (fun _ _ _ => ⟨_, rfl⟩)
  | configurationRequest id destCid flags options =>
    exact succeeds_onConfigRequest m id destCid flags hlength
  | configurationResponse id sourceCid flags result options =>
    exact onConfigResponse_cases (P := Succeeds) (fun _ => ⟨_, rfl⟩)
      (fun _ _ _ _ _ => ⟨_, rfl⟩) (fun _ _ _ _ _ => ⟨_, rfl⟩) (fun _ _ _ _ => ⟨_, rfl⟩)
      (fun _ _ _ _ _ _ _ _ => ⟨_, rfl⟩) (fun _ _ _ _ _ _ => ⟨_, rfl⟩)
  | disconnectionRequest id destCid sourceCid =>
    simp only [dispatch, signal_disconnectionResponse, andThen_ok]
    exact ⟨_, rfl⟩
  | echoRequest id data => exact succeeds_reply hlength
  | informationRequest id infoType =>
    refine succeeds_reply ?_
    simp only [Signal.body, information]
    split
    · exact of_decide_eq_true rfl
    split <;> simp
  | commandReject id reason data => cases retired <;> exact ⟨_, rfl⟩
  | disconnectionResponse | echoResponse | informationResponse => exact ⟨_, rfl⟩

theorem succeeds_handleSignal {sig : Signal} (hforward : m.keepsForward sig = true)
    (hlength : sig.answerLength ≤ 65535) : Succeeds (m.handleSignal sig) := by
  unfold handleSignal
  cases sig.answers with
  | none => exact succeeds_dispatch none hforward hlength
  | some id =>
    refine succeeds_dispatch (m.outstanding id) ?_ hlength
    rw [← hforward]
    cases sig <;> rfl

/-! ## Runs -/

/-- The condition on the steps of a run: a PDU fits its length field, and every
command keeps the channels moving forward. -/
def lifecycleCondition : Condition where
  call := fun _ call =>
    match call with
    | .handlePdu pdu => pdu.payload.length ≤ 65535
    | _ => true
  command := keepsForward

def AllPermitted (moves : List MuxMove) (m : Multiplexer) : Prop :=
  Along (fun m move => (m.make move).1) Permitted moves m

structure MadeOf (m : Multiplexer) (outcome : Multiplexer × Except L2capError (List L2capEvent))
    (moves : List MuxMove) : Prop where
  state : outcome.1 = m.follow moves
  events : told outcome.2 = toldOf moves m
  permitted : AllPermitted moves m

theorem madeOf_signals {signals : List Signal}
    (hmeets : signalsMeet lifecycleCondition signals m = true)
    (hlength : ∀ sig ∈ signals, sig.answerLength ≤ 65535) (out : List L2capEvent) :
    handleSignals signals m out = (m.follow (signals.map .command),
      .ok (out ++ toldOf (signals.map .command) m)) ∧
      AllPermitted (signals.map .command) m := by
  induction signals generalizing m out with
  | nil =>
    rw [map_nil, toldOf, append_nil]
    exact ⟨rfl, trivial⟩
  | cons sig rest ih =>
    simp only [signalsMeet, Bool.and_eq_true] at hmeets
    obtain ⟨events, hevents⟩ :=
      succeeds_handleSignal hmeets.1 (hlength sig mem_cons_self)
    obtain ⟨m', hm'⟩ : ∃ m', m.handleSignal sig = (m', .ok events) :=
      ⟨(m.handleSignal sig).1, Prod.ext rfl hevents⟩
    have hmake : m.make (.command sig) = (m', events) := by rw [make, hm', told]
    rw [hm'] at hmeets
    obtain ⟨hrest, hpermitted⟩ :=
      ih hmeets.2 (fun sig hsig => hlength sig (mem_cons_of_mem _ hsig)) (out ++ events)
    refine ⟨?_, hmeets.1, ?_⟩
    · rw [handleSignals, hm', andThen_ok, hrest, map_cons, toldOf, hmake, append_assoc]
      simp only [follow, foldl_cons, hmake]
    · dsimp only
      rw [hmake]
      exact hpermitted

theorem madeOf_call {call : Call} (hmeets : callMeets lifecycleCondition m call = true)
    (hordered : m.Ordered call) : MadeOf m (m.perform call) call.moves := by
  have hself (call : Call) (hpermitted : m.Permitted (.call call)) :
      MadeOf m (m.perform call) [.call call] :=
    ⟨rfl, (append_nil _).symm, hpermitted, trivial⟩
  simp only [callMeets, Bool.and_eq_true] at hmeets
  cases call with
  | handlePdu pdu =>
    unfold Call.moves perform handlePdu
    dsimp only
    split
    next hsignaling =>
      simp only [hsignaling, if_true, lifecycleCondition, decide_eq_true_eq] at hmeets
      obtain ⟨hsize, hmeets⟩ := hmeets
      have hlength : ∀ sig ∈ (Signal.decodeFrame pdu.payload).signals,
          sig.answerLength ≤ 65535 := fun sig hsig => by
        have hle := Signal.answerLength_of_decodeFrame pdu.payload hsig
        omega
      obtain ⟨hsignals, hpermitted⟩ := madeOf_signals hmeets hlength
        (told (rejectAll (Signal.decodeFrame pdu.payload).rejects))
      have hrejects : andThen (m, rejectAll (Signal.decodeFrame pdu.payload).rejects)
          (fun m out => handleSignals (Signal.decodeFrame pdu.payload).signals m out) =
          handleSignals (Signal.decodeFrame pdu.payload).signals m
            (told (rejectAll (Signal.decodeFrame pdu.payload).rejects)) := by
        rw [rejectAll_eq]
        rfl
      rw [hrejects, hsignals]
      exact ⟨rfl, rfl, trivial, hpermitted⟩
    next => exact ⟨rfl, (append_nil _).symm, trivial, trivial⟩
  | linkDown order => exact hself _ hordered
  | listenWith | connectWith | send | disconnect | tick => exact hself _ trivial

theorem madeOf_run (calls : List Call) {m : Multiplexer}
    (hmeets : runMeets lifecycleCondition calls m = true) (hordered : RunOrdered calls m) :
    m.run calls = m.follow (calls.flatMap Call.moves) ∧
      toldBy calls m = toldOf (calls.flatMap Call.moves) m ∧
      AllPermitted (calls.flatMap Call.moves) m := by
  induction calls generalizing m with
  | nil => exact ⟨rfl, rfl, trivial⟩
  | cons call rest ih =>
    simp only [runMeets, Bool.and_eq_true] at hmeets
    have hcall := madeOf_call hmeets.1 hordered.1
    obtain ⟨hstate, hevents, hpermitted⟩ := ih hmeets.2 hordered.2
    rw [hcall.state] at hstate hevents hpermitted
    rw [flatMap_cons]
    refine ⟨?_, ?_, along_append.mpr ⟨hcall.permitted, hpermitted⟩⟩
    · calc m.run (call :: rest) = (m.perform call).1.run rest := rfl
        _ = (m.follow call.moves).follow (rest.flatMap Call.moves) := by
          rw [hcall.state, hstate]
        _ = m.follow (call.moves ++ rest.flatMap Call.moves) := (foldl_append ..).symm
    · calc toldBy (call :: rest) m
          = told (m.perform call).2 ++ toldBy rest (m.perform call).1 := rfl
        _ = toldOf call.moves m ++ toldOf (rest.flatMap Call.moves) (m.follow call.moves) := by
          rw [hcall.events, hcall.state, hevents]
        _ = toldOf (call.moves ++ rest.flatMap Call.moves) m := (toldOf_append ..).symm

/-- The state before move `k` of a run. -/
def stateAt (m : Multiplexer) (moves : List MuxMove) (k : ℕ) : Multiplexer :=
  m.follow (moves.take k)

/-- What move `k` of a run tells the caller. -/
def toldAt (m : Multiplexer) (moves : List MuxMove) (k : ℕ) : List L2capEvent :=
  match moves[k]? with
  | some move => ((m.stateAt moves k).make move).2
  | none => []

/-- The channel `raw` is announced in move `k`. -/
def AnnouncedAt (m : Multiplexer) (moves : List MuxMove) (raw : UInt16) (k : ℕ) : Prop :=
  ∃ event ∈ m.toldAt moves k, event.opens raw = true

/-- The lifecycle of the channels over the moves of a run. -/
structure Lifecycle (m : Multiplexer) (moves : List MuxMove) : Prop where
  /-- While a channel is there, it never goes back. -/
  forward : ∀ raw i j, i ≤ j → j ≤ moves.length →
    (∀ k, i ≤ k → k ≤ j → (m.stateAt moves k).stage raw ≠ none) → ∀ a b,
      (m.stateAt moves i).stage raw = some a → (m.stateAt moves j).stage raw = some b → a ≤ b
  /-- One move announces a channel at most once. -/
  once : ∀ raw k, (m.toldAt moves k).countP (L2capEvent.opens raw) ≤ 1
  /-- Two moves announce a channel only if it was removed in between. -/
  again : ∀ raw i j, i < j → m.AnnouncedAt moves raw i → m.AnnouncedAt moves raw j →
    ∃ k, i < k ∧ k ≤ j ∧ (m.stateAt moves k).stage raw = none
  /-- Data comes after the announcement of its channel, which has been open
  since. -/
  data : ∀ raw k, ∀ event ∈ m.toldAt moves k, event.carries raw = true →
    ∃ i < k, m.AnnouncedAt moves raw i ∧
      ∀ j, i < j → j ≤ k → (m.stateAt moves j).stage raw = some ChannelState.open_.stage
  /-- No data follows the report of an end in the same move. -/
  ended : ∀ k, (m.toldAt moves k).Pairwise fun first second =>
    first.isReport = true → second.isData = false
  /-- The channels a move removes are reported, each exactly once, and nothing
  else is. -/
  removed : ∀ k < moves.length, ∃ removed, removed.Nodup ∧
    (∀ raw, raw ∈ removed ↔
      (m.stateAt moves k).stage raw ≠ none ∧ (m.stateAt moves (k + 1)).stage raw = none) ∧
    List.Forall₂
      (fun raw event => ∃ ch, (m.stateAt moves k).channels raw = some ch ∧ ch.ReportedBy event)
      removed ((m.toldAt moves k).filter L2capEvent.isReport)

theorem lawful_at {moves : List MuxMove} (hkeyed : m.Keyed) (hpermitted : AllPermitted moves m)
    {k : ℕ} (hk : k < moves.length) :
    Lawful (m.stateAt moves k) (m.stateAt moves (k + 1)) (m.toldAt moves k) := by
  have hlawful : Along (fun m move => (m.make move).1)
      (fun m move => Lawful m (m.make move).1 (m.make move).2) moves m :=
    hpermitted.imp_of_invariant Keyed hkeyed fun m move hm hmove =>
      ⟨lawful_make hm hmove, (lawful_make hm hmove).keyed⟩
  have hat := hlawful.getElem hk
  unfold toldAt
  rw [getElem?_eq_getElem hk, stateAt, stateAt, follow, follow, take_succ_foldl hk]
  exact hat

theorem toldAt_of_ge {moves : List MuxMove} {k : ℕ} (hk : moves.length ≤ k) :
    m.toldAt moves k = [] := by
  rw [toldAt, getElem?_eq_none hk]

theorem announcedAt_iff {moves : List MuxMove} (hkeyed : m.Keyed)
    (hpermitted : AllPermitted moves m) {raw : UInt16} {k : ℕ} :
    m.AnnouncedAt moves raw k ↔ k < moves.length ∧
      EntersAt (fun k => (m.stateAt moves k).stage raw) ChannelState.open_.stage k := by
  constructor
  · intro hannounced
    have hk : k < moves.length := by
      by_contra hk
      obtain ⟨event, hevent, -⟩ := hannounced
      rw [toldAt_of_ge (Nat.le_of_not_lt hk)] at hevent
      cases hevent
    refine ⟨hk, ?_⟩
    have hcount := (lawful_at hkeyed hpermitted hk).announced raw
    have hpos := countP_pos_iff.mpr hannounced
    split at hcount
    next henters => exact henters
    next => omega
  · rintro ⟨hk, henters⟩
    have hcount := (lawful_at hkeyed hpermitted hk).announced raw
    rw [if_pos ⟨henters.1, henters.2⟩] at hcount
    exact countP_pos_iff.mp (by omega)

theorem lifecycle {moves : List MuxMove} (hfree : ∀ raw, m.channels raw = none)
    (hpermitted : AllPermitted moves m) : Lifecycle m moves := by
  have hkeyed : m.Keyed := fun raw ch hch => nomatch (hfree raw).symm.trans hch
  have hforward (raw : UInt16) :
      Forward (fun k => (m.stateAt moves k).stage raw) moves.length :=
    fun k hk a b ha hb => (lawful_at hkeyed hpermitted hk).forward raw a b ha hb
  refine ⟨fun raw i j hij hj hpresent a b ha hb => (hforward raw).le hij hj hpresent ha hb,
    fun raw k => ?_, fun raw i j hij hi hj => ?_, fun raw k event hevent hcarries => ?_,
    fun k => ?_, fun k hk => (lawful_at hkeyed hpermitted hk).removed⟩
  · rcases Nat.lt_or_ge k moves.length with hk | hk
    · rw [(lawful_at hkeyed hpermitted hk).announced]
      split <;> omega
    · rw [toldAt_of_ge hk]
      exact Nat.zero_le 1
  · obtain ⟨-, henters⟩ := (announcedAt_iff hkeyed hpermitted).mp hi
    obtain ⟨hlt, hagain⟩ := (announcedAt_iff hkeyed hpermitted).mp hj
    exact (hforward raw).absent_between hij hlt henters hagain
  · have hk : k < moves.length := by
      by_contra hk
      rw [toldAt_of_ge (Nat.le_of_not_lt hk)] at hevent
      cases hevent
    have hopen := (lawful_at hkeyed hpermitted hk).data event hevent raw hcarries
    have hstart : (m.stateAt moves 0).stage raw ≠ some ChannelState.open_.stage := by
      rw [stage, stateAt, take_zero]
      simp [follow, hfree raw]
    obtain ⟨i, hik, henters, hkept⟩ :=
      @entered_before _ (fun k => (m.stateAt moves k).stage raw) _ hstart k hopen
    exact ⟨i, hik, (announcedAt_iff hkeyed hpermitted).mpr ⟨by omega, henters⟩, hkept⟩
  · rcases Nat.lt_or_ge k moves.length with hk | hk
    · exact (lawful_at hkeyed hpermitted hk).ended
    · rw [toldAt_of_ge hk]
      exact .nil

theorem toldOf_eq_flatMap (moves : List MuxMove) (m : Multiplexer) :
    toldOf moves m = (List.range moves.length).flatMap (m.toldAt moves) := by
  induction moves generalizing m with
  | nil => rfl
  | cons move rest ih =>
    rw [toldOf, ih, length_cons, range_succ_eq_map, flatMap_cons,
      flatMap_map]
    rfl

/-- **Channels only move forward** in a run in which no connection response
sends one back: the moves of the run leave its state and tell what its calls
return, and over them every channel keeps to its lifecycle. -/
theorem lifecycle_run (localMtu : UInt16) (calls : List Call)
    (hmeets : runMeets lifecycleCondition calls (new localMtu) = true)
    (hordered : RunOrdered calls (new localMtu)) :
    let moves := calls.flatMap Call.moves
    (new localMtu).run calls = (new localMtu).stateAt moves moves.length ∧
      toldBy calls (new localMtu) =
        (List.range moves.length).flatMap ((new localMtu).toldAt moves) ∧
      Lifecycle (new localMtu) moves := by
  obtain ⟨hstate, hevents, hpermitted⟩ := madeOf_run calls hmeets hordered
  refine ⟨?_, ?_, lifecycle (fun _ => rfl) hpermitted⟩
  · rw [stateAt, take_length, hstate]
  · rw [hevents, toldOf_eq_flatMap]

/-- A channel we dialled, whose request is sent twice before the peer answers.
-/
def dialledTwice : List Call :=
  [.connectWith .avdtp .basic,
    .tick [1] [] rtx,
    .handlePdu (Signal.connectionResponse 1 ⟨0x50⟩ ⟨0x40⟩ .success 0).pdu,
    .handlePdu (Signal.configurationResponse 2 ⟨0x40⟩ 0 .success []).pdu,
    .handlePdu (Signal.configurationRequest 7 ⟨0x40⟩ 0 []).pdu]

theorem dialledTwice_ordered : RunOrdered dialledTwice (new 672) := by
  refine ⟨trivial, ⟨⟨nodup_singleton 1, fun id => ?_⟩, nodup_nil, fun raw => ?_⟩,
    trivial, trivial, trivial, trivial⟩
  · change id ∈ [1] ↔ (update (fun _ => none) (1 : UInt8) (some _) id).isSome = true
    rw [update_apply]
    split <;> simp [*]
  · simp only [not_mem_nil, false_iff]
    exact nofun

theorem lifecycle_run_sample : runMeets lifecycleCondition dialledTwice (new 672) = true ∧
      (new 672).run dialledTwice =
        (new 672).stateAt (dialledTwice.flatMap Call.moves)
          (dialledTwice.flatMap Call.moves).length ∧
      Lifecycle (new 672) (dialledTwice.flatMap Call.moves) :=
  have hmeets : runMeets lifecycleCondition dialledTwice (new 672) = true := by decide +kernel
  ⟨hmeets, (lifecycle_run 672 dialledTwice hmeets dialledTwice_ordered).1,
    (lifecycle_run 672 dialledTwice hmeets dialledTwice_ordered).2.2⟩

/-- The answer to the second copy of the request sends the open channel back to
configuring. -/
theorem second_answer_reopens : ¬ Lifecycle (new 672) ((dialledTwice ++
      [Call.handlePdu (Signal.connectionResponse 1 ⟨0x50⟩ ⟨0x40⟩ .success 0).pdu]).flatMap
        Call.moves) := by
  intro h
  have hback := h.forward 0x40 9 10 (by omega) (by decide +kernel) (fun k hlow hhigh => by
    obtain rfl | rfl : k = 9 ∨ k = 10 := by omega
    · decide +kernel
    · decide +kernel) 2 1 (by decide +kernel) (by decide +kernel)
  omega

end Multiplexer

end Castaway.L2cap
