import Castaway.Bluetooth.Sink
import Castaway.Lib.Runs
import Mathlib.Data.List.Nodup
import Mathlib.Data.List.ReduceOption

/-!
# Signalling with any peer

`SinkStep` says once what the session does with a message, with our own wish to
suspend, or when the link goes down.  Everything else follows from it by cases:

* a command gets one answer, and a refused one changes nothing;
* an endpoint is in use exactly while it is the configured one (`Exact`);
* the events of a run are a sequence of lives of a stream (`livesOf`), and the
  configuration is the latest that was announced.

**The headline result** is `sink_sound`.  Two things are asked of the peer that
the session does not check: that a command for the stream names the stream's
endpoint, and that a configuration is one the endpoint offers.  `sink_unsound`
shows both broken.
-/

namespace Castaway.Bluetooth

open List

/-- What the session is given. -/
inductive SinkInput where
  | message (msg : Message)
  | suspendPeer
  | linkDown
  deriving DecidableEq, Repr

namespace SinkSession

def step (s : SinkSession) : SinkInput → SinkSession × List SinkEvent
  | .message msg => s.handle msg
  | .suspendPeer => (s.suspendPeer.1, s.suspendPeer.2.toList)
  | .linkDown => s.linkDown

/-! ## What a step does -/

/-- The endpoint that a SET_CONFIGURATION or a RECONFIGURE is for, and the
configuration it carries, when it is one to accept. -/
def configures (s : SinkSession) (msg : Message) :
    Option (StreamEndpoint × CodecCapability × Core.AudioFormat) :=
  let checked := fun (acp : UInt8) (list : Bytes) =>
    (s.endpoint? acp).bind fun endpoint =>
      (checkConfiguration endpoint list).toOption.map fun result => (endpoint, result)
  match msg.signal, s.stream, msg.payload with
  | .setConfiguration, .idle, acp :: _ :: list => checked acp list
  | .reconfigure, .open context, acp :: list =>
    (checked acp list).filter fun result => result.1.seid == context.active
  | _, _, _ => none

inductive SinkStep (s t : SinkSession) (events : List SinkEvent) : SinkInput → Prop
  | refused {msg : Message} {payload : Bytes} (hcommand : msg.messageType = .command)
      (hstate : t = s) (hevents : events = [.reply (msg.refuse payload)]) :
      SinkStep s t events (.message msg)
  | answered {msg : Message} {payload : Bytes} (hcommand : msg.messageType = .command)
      (hsignal : msg.signal ∉ [.open, .start, .suspend, .close, .reconfigure, .setConfiguration])
      (hstate : t = s) (hevents : events = [.reply (msg.accept payload)]) :
      SinkStep s t events (.message msg)
  | configured {msg : Message} {endpoint : StreamEndpoint} {capability : CodecCapability}
      {format : Core.AudioFormat} {context : StreamContext} {report : List Message}
      (hcommand : msg.messageType = .command) (hsignal : msg.signal = .setConfiguration)
      (hidle : s.stream = .idle) (hfor : s.configures msg = some (endpoint, capability, format))
      (hendpoint : endpoint ∈ s.endpoints) (hactive : context.active = endpoint.seid)
      (hconfiguration : context.configuration = capability)
      (hstream : t.stream = .configured context)
      (hendpoints : t.endpoints = (s.markEndpoint endpoint.seid true).endpoints)
      (hevents : events = [.reply (msg.accept []),
        .configured capability.audioCodec format capability] ++ report.map .command) :
      SinkStep s t events (.message msg)
  | reconfigured {msg : Message} {endpoint : StreamEndpoint} {capability : CodecCapability}
      {format : Core.AudioFormat} {context : StreamContext}
      (hcommand : msg.messageType = .command) (hsignal : msg.signal = .reconfigure)
      (hopen : s.stream = .open context)
      (hfor : s.configures msg = some (endpoint, capability, format))
      (hendpoint : endpoint ∈ s.endpoints) (hactive : context.active = endpoint.seid)
      (hnamed : ∃ byte rest, msg.payload = byte :: rest ∧ byte >>> 2 = endpoint.seid.raw)
      (hstate : t = { s with stream := .open { context with configuration := capability } })
      (hevents : events = [.reply (msg.accept []),
        .configured capability.audioCodec format capability]) :
      SinkStep s t events (.message msg)
  | moved {msg : Message} {context : StreamContext} {event : SinkEvent} {stream : Stream}
      (hcommand : msg.messageType = .command)
      (hmove : (msg.signal = .open ∧ s.stream = .configured context ∧ stream = .open context ∧
          event = .opened) ∨
        (msg.signal = .start ∧ s.stream = .open context ∧ stream = .streaming context none ∧
          event = .started) ∨
        (msg.signal = .suspend ∧ (∃ suspending, s.stream = .streaming context suspending) ∧
          stream = .open context ∧ event = .suspended))
      (hstate : t = { s with stream })
      (hevents : events = [.reply (msg.accept []), event]) : SinkStep s t events (.message msg)
  | ended {msg : Message} {context : StreamContext} (hcommand : msg.messageType = .command)
      (hsignal : msg.signal = .close ∨ msg.signal = .abort)
      (hcontext : s.stream.context = some context) (hstate : t = s.teardown)
      (hevents : events = [.reply (msg.accept []), .closed]) : SinkStep s t events (.message msg)
  | lost {context : StreamContext} (hcontext : s.stream.context = some context)
      (hstate : t = s.teardown) (hevents : events = [.closed]) : SinkStep s t events .linkDown
  | quiet {input : SinkInput}
      (hinput : ∀ msg, input = .message msg → msg.messageType ≠ .command) (hstate : t = s)
      (hevents : events = []) : SinkStep s t events input
  | asked {context : StreamContext} {message : Message}
      (hstream : s.stream = .streaming context none)
      (hstate : t = { s with
        nextTransaction := following s.nextTransaction
        stream := .streaming context (some s.nextTransaction) })
      (hevents : events = [.command message]) : SinkStep s t events .suspendPeer
  | heeded {msg : Message} {context : StreamContext} (hresponse : msg.messageType ≠ .command)
      (hsignal : msg.signal = .suspend)
      (hstream : s.stream = .streaming context (some msg.transaction))
      (hstate : t = { s with stream := .open context }) (hevents : events = [.suspended]) :
      SinkStep s t events (.message msg)
  | declined {msg : Message} {context : StreamContext} (hresponse : msg.messageType ≠ .command)
      (hsignal : msg.signal = .suspend)
      (hstream : s.stream = .streaming context (some msg.transaction))
      (hstate : t = { s with stream := .streaming context none })
      (hevents : events = [.suspendRefused]) : SinkStep s t events (.message msg)

variable {s t : SinkSession} {events : List SinkEvent} {input : SinkInput}
  {endpoint : StreamEndpoint} {msg : Message}

theorem raw_of_fromShifted {byte : UInt8} {seid : Seid} (h : Seid.fromShifted byte = .ok seid) :
    seid.raw = byte >>> 2 := by
  unfold Seid.fromShifted Seid.new at h
  split at h
  · cases h
    rfl
  · cases h

/-- The endpoint that a byte names is one of ours, and has that number. -/
theorem endpoint?_some {byte : UInt8} (h : s.endpoint? byte = some endpoint) :
    endpoint ∈ s.endpoints ∧ byte >>> 2 = endpoint.seid.raw := by
  unfold endpoint? at h
  split at h
  next seid hseid =>
    have hsame := find?_some h
    rw [beq_iff_eq] at hsame
    exact ⟨mem_of_find?_eq_some h, by rw [hsame, raw_of_fromShifted hseid]⟩
  · cases h

theorem delayReport_stream (s : SinkSession) : s.delayReport.1.stream = s.stream := by
  unfold delayReport
  split
  · rfl
  · split <;> rfl

theorem delayReport_endpoints (s : SinkSession) : s.delayReport.1.endpoints = s.endpoints := by
  unfold delayReport
  split
  · rfl
  · split <;> rfl

theorem delayReport_events (s : SinkSession) :
    ∃ report : List Message, s.delayReport.2 = report.map .command := by
  unfold delayReport
  split
  · exact ⟨[], rfl⟩
  · split
    · exact ⟨[_], rfl⟩
    · exact ⟨[], rfl⟩

theorem step_onSetConfiguration (hcommand : msg.messageType = .command)
    (hsignal : msg.signal = .setConfiguration) :
    SinkStep s (s.onSetConfiguration msg).1 (s.onSetConfiguration msg).2 (.message msg) := by
  unfold onSetConfiguration
  split
  next acp int list hpayload =>
    split
    · exact .refused hcommand rfl rfl
    next endpoint hendpoint =>
      split
      · exact .refused hcommand rfl rfl
      next hidle =>
        have hidle := Decidable.not_not.mp hidle
        split
        · exact .refused hcommand rfl rfl
        next capability format hcheck =>
          dsimp only
          have hfor : s.configures msg = some (endpoint, capability, format) := by
            simp only [configures, hsignal, hidle, hpayload, hendpoint, Option.bind_some, hcheck]
            rfl
          obtain ⟨report, hreport⟩ := delayReport_events { s.markEndpoint endpoint.seid true with
            stream := .configured ⟨endpoint.seid, (Seid.fromShifted int).toOption, capability,
              (s.markEndpoint endpoint.seid true).delayReporting &&
                listsCategory list categoryDelayReporting⟩ }
          exact @SinkStep.configured s _ _ msg endpoint capability format _ report hcommand hsignal
            hidle hfor (endpoint?_some hendpoint).1 rfl rfl (delayReport_stream _)
            (delayReport_endpoints _) (by rw [hreport])
  · exact .refused hcommand rfl rfl

theorem step_onReconfigure (hcommand : msg.messageType = .command)
    (hsignal : msg.signal = .reconfigure) :
    SinkStep s (s.onReconfigure msg).1 (s.onReconfigure msg).2 (.message msg) := by
  unfold onReconfigure
  split
  next context hopen =>
    split
    · exact .refused hcommand rfl rfl
    next acp list hpayload =>
      split
      · exact .refused hcommand rfl rfl
      next endpoint hendpoint =>
        split
        · exact .refused hcommand rfl rfl
        next hactive =>
          have hactive := Decidable.not_not.mp hactive
          split
          · exact .refused hcommand rfl rfl
          next capability format hcheck =>
            have hfor : s.configures msg = some (endpoint, capability, format) := by
              simp only [configures, hsignal, hopen, hpayload, hendpoint]
              simp [Except.toOption, hcheck, hactive]
            obtain ⟨hmem, hnumber⟩ := endpoint?_some hendpoint
            exact .reconfigured hcommand hsignal hopen hfor hmem hactive
              ⟨acp, list, hpayload, hnumber⟩ rfl rfl
  · exact .refused hcommand rfl rfl

theorem teardown_of_idle (h : s.stream = .idle) : s.teardown = s := by
  simp only [teardown, h, Stream.context]
  rw [← h]

theorem context_of_not_idle (h : s.stream ≠ .idle) :
    ∃ context, s.stream.context = some context := by
  cases hstream : s.stream with
  | idle => exact absurd hstream h
  | configured context | «open» context | streaming context suspending => exact ⟨context, rfl⟩

theorem step_onResponse (hresponse : msg.messageType ≠ .command) :
    SinkStep s (s.onResponse msg).1 (s.onResponse msg).2 (.message msg) := by
  have hinput : ∀ other, SinkInput.message msg = .message other →
      other.messageType ≠ .command := by
    rintro other ⟨⟩
    exact hresponse
  unfold onResponse
  split
  next context label hstream =>
    split
    · exact .quiet hinput rfl rfl
    next hmatch =>
      obtain ⟨hsignal, hlabel⟩ := not_or.mp hmatch
      have hsignal := Decidable.not_not.mp hsignal
      have hlabel := Decidable.not_not.mp hlabel
      rw [hlabel] at hstream
      split
      · exact .heeded hresponse hsignal hstream rfl rfl
      · exact .declined hresponse hsignal hstream rfl rfl
  · exact .quiet hinput rfl rfl

theorem step_command (hcommand : msg.messageType = .command) :
    SinkStep s (s.handle msg).1 (s.handle msg).2 (.message msg) := by
  rw [handle, if_neg (not_not.mpr hcommand)]
  cases hsignal : msg.signal with
  | discover => exact .answered hcommand (by rw [hsignal]; decide) rfl rfl
  | getCapabilities | getAllCapabilities =>
    dsimp only
    unfold onGetCapabilities
    split
    · exact .refused hcommand rfl rfl
    · split
      · exact .refused hcommand rfl rfl
      · exact .answered hcommand (by rw [hsignal]; decide) rfl rfl
  | setConfiguration => exact step_onSetConfiguration hcommand hsignal
  | getConfiguration =>
    dsimp only
    unfold onGetConfiguration
    split
    · exact .refused hcommand rfl rfl
    · exact .answered hcommand (by rw [hsignal]; decide) rfl rfl
  | reconfigure => exact step_onReconfigure hcommand hsignal
  | «open» =>
    dsimp only
    unfold onOpen
    split
    next context hstream =>
      exact .moved hcommand (.inl ⟨hsignal, hstream, rfl, rfl⟩) rfl rfl
    · exact .refused hcommand rfl rfl
  | start =>
    dsimp only
    unfold onStart
    split
    next context hstream =>
      exact .moved hcommand (.inr (.inl ⟨hsignal, hstream, rfl, rfl⟩)) rfl rfl
    · exact .refused hcommand rfl rfl
  | suspend =>
    dsimp only
    unfold onSuspend
    split
    next context suspending hstream =>
      exact .moved hcommand (.inr (.inr ⟨hsignal, ⟨suspending, hstream⟩, rfl, rfl⟩)) rfl rfl
    · exact .refused hcommand rfl rfl
  | close =>
    dsimp only
    unfold onClose
    split
    · exact .refused hcommand rfl rfl
    next hbusy =>
      obtain ⟨context, hcontext⟩ := context_of_not_idle hbusy
      exact .ended hcommand (.inl hsignal) hcontext rfl rfl
  | abort =>
    dsimp only
    unfold onAbort
    split
    next hidle => exact .answered hcommand (by rw [hsignal]; decide) (teardown_of_idle hidle) rfl
    next hbusy =>
      obtain ⟨context, hcontext⟩ := context_of_not_idle hbusy
      exact .ended hcommand (.inr hsignal) hcontext rfl rfl
  | securityControl | delayReport =>
    exact .answered hcommand (by rw [hsignal]; decide) rfl rfl

/-- **What a step does**, whoever the peer is. -/
theorem step_cases (s : SinkSession) (input : SinkInput) :
    SinkStep s (s.step input).1 (s.step input).2 input := by
  cases input with
  | message msg =>
    by_cases hcommand : msg.messageType = .command
    · exact step_command hcommand
    · rw [step, handle, if_pos hcommand]
      exact step_onResponse hcommand
  | suspendPeer =>
    simp only [step, suspendPeer]
    split
    next context hstream =>
      split
      · exact .quiet nofun rfl rfl
      · exact .asked hstream rfl rfl
    · exact .quiet nofun rfl rfl
  | linkDown =>
    simp only [step, linkDown]
    split
    · exact .quiet nofun rfl rfl
    next hbusy =>
      obtain ⟨context, hcontext⟩ := context_of_not_idle hbusy
      exact .lost hcontext rfl rfl

/-! ## The endpoints -/

/-- Endpoints are numbered apart, and in use exactly while they are configured.
-/
structure Exact (s : SinkSession) : Prop where
  numbered : (s.endpoints.map StreamEndpoint.seid).Nodup
  inUse : ∀ endpoint ∈ s.endpoints, endpoint.inUse = true ↔
    ∃ context, s.stream.context = some context ∧ context.active = endpoint.seid
  active : ∀ context, s.stream.context = some context →
    ∃ endpoint ∈ s.endpoints, endpoint.seid = context.active

theorem endpointAt_some {index : ℕ} {capability : CodecCapability}
    (h : endpointAt index capability = some endpoint) :
    endpoint.seid.raw.toNat = index + 1 ∧ endpoint.inUse = false := by
  unfold endpointAt at h
  split at h
  next hlt =>
    split at h
    next seid hseid =>
      cases h
      unfold Seid.new at hseid
      split at hseid
      · cases hseid
        refine ⟨?_, rfl⟩
        rw [UInt8.toNat_ofNat', Nat.mod_eq_of_lt (by omega)]
      · cases hseid
    · cases h
  · cases h

theorem endpoints_new (capabilities : List CodecCapability) :
    ((new capabilities).endpoints.map StreamEndpoint.seid).Nodup ∧
      ∀ endpoint ∈ (new capabilities).endpoints,
        endpoint.seid.raw.toNat ≤ capabilities.length ∧ endpoint.inUse = false := by
  induction capabilities using List.reverseRecOn with
  | nil => exact ⟨nodup_nil, fun _ h => absurd h not_mem_nil⟩
  | append_singleton capabilities capability ih =>
    obtain ⟨hnodup, hall⟩ := ih
    have hconcat : (new (capabilities ++ [capability])).endpoints =
        (new capabilities).endpoints ++ (endpointAt capabilities.length capability).toList := by
      simp only [new, mapIdx_concat, reduceOption_append, reduceOption_singleton]
    rw [hconcat, map_append, length_append, length_singleton]
    constructor
    · refine nodup_append.mpr ⟨hnodup, ?_, fun first hfirst second hsecond heq => ?_⟩
      · cases endpointAt capabilities.length capability with
        | none => exact nodup_nil
        | some endpoint => exact nodup_singleton _
      · obtain ⟨before, hbefore, rfl⟩ := mem_map.mp hfirst
        obtain ⟨endpoint, hendpoint, rfl⟩ := mem_map.mp hsecond
        have hlast := (endpointAt_some (Option.mem_toList.mp hendpoint)).1
        have hle := (hall before hbefore).1
        rw [heq] at hle
        omega
    · intro endpoint hendpoint
      rcases mem_append.mp hendpoint with hbefore | hlast
      · obtain ⟨hle, hunused⟩ := hall endpoint hbefore
        exact ⟨by omega, hunused⟩
      · obtain ⟨hnumber, hunused⟩ := endpointAt_some (Option.mem_toList.mp hlast)
        exact ⟨by omega, hunused⟩

theorem exact_new (capabilities : List CodecCapability) : (new capabilities).Exact where
  numbered := (endpoints_new capabilities).1
  inUse := fun endpoint hendpoint => by
    refine iff_of_false ?_ ?_
    · rw [((endpoints_new capabilities).2 endpoint hendpoint).2]
      exact Bool.false_ne_true
    · rintro ⟨context, hcontext, -⟩
      cases hcontext
  active := fun context hcontext => by cases hcontext

theorem seid_markEndpoint (s : SinkSession) (seid : Seid) (inUse : Bool) :
    (s.markEndpoint seid inUse).endpoints.map StreamEndpoint.seid =
      s.endpoints.map StreamEndpoint.seid := by
  rw [markEndpoint, map_map]
  refine map_congr_left fun endpoint _ => ?_
  simp only [Function.comp_apply]
  split <;> rfl

theorem mem_markEndpoint {seid : Seid} {inUse : Bool}
    (h : endpoint ∈ (s.markEndpoint seid inUse).endpoints) :
    ∃ before ∈ s.endpoints, endpoint.seid = before.seid ∧
      endpoint.capability = before.capability ∧
      endpoint.inUse = if before.seid = seid then inUse else before.inUse := by
  obtain ⟨before, hbefore, rfl⟩ := mem_map.mp h
  refine ⟨before, hbefore, ?_⟩
  split <;> exact ⟨rfl, rfl, rfl⟩

theorem markEndpoint_of_mem (seid : Seid) (inUse : Bool) (h : endpoint ∈ s.endpoints) :
    ∃ after ∈ (s.markEndpoint seid inUse).endpoints, after.seid = endpoint.seid ∧
      after.capability = endpoint.capability := by
  refine ⟨_, mem_map_of_mem h, ?_⟩
  split <;> exact ⟨rfl, rfl⟩

theorem Exact.keep (h : s.Exact) (hendpoints : t.endpoints = s.endpoints)
    (hactive : t.stream.context.map StreamContext.active =
      s.stream.context.map StreamContext.active) : t.Exact := by
  have hsame : ∀ seid, (∃ context, t.stream.context = some context ∧ context.active = seid) ↔
      ∃ context, s.stream.context = some context ∧ context.active = seid := by
    intro seid
    rw [← Option.map_eq_some_iff, ← Option.map_eq_some_iff, hactive]
  refine ⟨?_, fun endpoint hendpoint => ?_, fun context hcontext => ?_⟩
  · rw [hendpoints]
    exact h.numbered
  · rw [hsame]
    exact h.inUse endpoint (hendpoints ▸ hendpoint)
  · obtain ⟨before, hbefore, hseid⟩ := (hsame context.active).mp ⟨context, hcontext, rfl⟩
    rw [hendpoints, ← hseid]
    exact h.active before hbefore

theorem Exact.configured (h : s.Exact) (hidle : s.stream = .idle) {endpoint : StreamEndpoint}
    (hendpoint : endpoint ∈ s.endpoints) {context : StreamContext}
    (hactive : context.active = endpoint.seid) (hstream : t.stream = .configured context)
    (hendpoints : t.endpoints = (s.markEndpoint endpoint.seid true).endpoints) : t.Exact := by
  have hcontext : t.stream.context = some context := by
    rw [hstream]
    rfl
  refine ⟨?_, fun after hafter => ?_, fun other hother => ?_⟩
  · rw [hendpoints, seid_markEndpoint]
    exact h.numbered
  · rw [hendpoints] at hafter
    obtain ⟨before, hbefore, hseid, -, huse⟩ := mem_markEndpoint hafter
    rw [huse, hcontext, hseid]
    split
    next hsame => exact iff_of_true rfl ⟨context, rfl, hactive.trans hsame.symm⟩
    next hother =>
      refine iff_of_false ?_ ?_
      · rw [h.inUse before hbefore, hidle]
        rintro ⟨_, hnone, -⟩
        cases hnone
      · rintro ⟨other, hsome, heq⟩
        cases hsome
        exact hother (heq.symm.trans hactive)
  · cases hcontext.symm.trans hother
    have hmem : endpoint.seid ∈ t.endpoints.map StreamEndpoint.seid := by
      rw [hendpoints, seid_markEndpoint]
      exact mem_map_of_mem hendpoint
    obtain ⟨after, hafter, hseid⟩ := mem_map.mp hmem
    exact ⟨after, hafter, hseid.trans hactive.symm⟩

/-- The stream is torn down, and its endpoint is free. -/
theorem Exact.teardown (h : s.Exact) {context : StreamContext}
    (hcontext : s.stream.context = some context) : s.teardown.Exact := by
  have hendpoints : s.teardown.endpoints = (s.markEndpoint context.active false).endpoints := by
    simp only [SinkSession.teardown, hcontext]
  have hnone : s.teardown.stream.context = none := by
    simp only [SinkSession.teardown, hcontext]
    rfl
  refine ⟨?_, fun after hafter => ?_, fun other hother => ?_⟩
  · rw [hendpoints, seid_markEndpoint]
    exact h.numbered
  · rw [hendpoints] at hafter
    obtain ⟨before, hbefore, hseid, -, huse⟩ := mem_markEndpoint hafter
    refine iff_of_false ?_ ?_
    · rw [huse]
      split
      · exact Bool.false_ne_true
      next hother =>
        rw [h.inUse before hbefore]
        rintro ⟨other, hsome, heq⟩
        cases hcontext.symm.trans hsome
        exact hother heq.symm
    · rw [hnone]
      rintro ⟨_, hsome, -⟩
      cases hsome
  · rw [hnone] at hother
    cases hother

/-- **One step** keeps the endpoints in step with the stream. -/
theorem Exact.step (h : s.Exact) (input : SinkInput) : (s.step input).1.Exact := by
  have hcases := step_cases s input
  generalize s.step input = result at hcases
  obtain ⟨t, events⟩ := result
  dsimp only at hcases ⊢
  cases hcases with
  | refused hcommand hstate hevents | answered hcommand hsignal hstate hevents => exact hstate ▸ h
  | configured hcommand hsignal hidle hfor hendpoint hactive hconfiguration hstream hendpoints
      hevents => exact h.configured hidle hendpoint hactive hstream hendpoints
  | reconfigured hcommand hsignal hopen hfor hendpoint hactive hnamed hstate hevents =>
    subst hstate
    refine h.keep rfl ?_
    rw [hopen]
    rfl
  | moved hcommand hmove hstate hevents =>
    subst hstate
    refine h.keep rfl ?_
    rcases hmove with ⟨-, hbefore, rfl, -⟩ | ⟨-, hbefore, rfl, -⟩ | ⟨-, ⟨_, hbefore⟩, rfl, -⟩
    · rw [hbefore]
      rfl
    · rw [hbefore]
      rfl
    · rw [hbefore]
      rfl
  | ended hcommand hsignal hcontext hstate hevents | lost hcontext hstate hevents =>
    exact hstate ▸ h.teardown hcontext
  | quiet hinput hstate hevents => exact hstate ▸ h
  | asked hstream hstate hevents | heeded hresponse hsignal hstream hstate hevents
  | declined hresponse hsignal hstream hstate hevents =>
    subst hstate
    refine h.keep rfl ?_
    rw [hstream]
    rfl

theorem Exact.one (h : s.Exact) {first second : StreamEndpoint} (hfirst : first ∈ s.endpoints)
    (hsecond : second ∈ s.endpoints) (huse : first.inUse = true) (huse' : second.inUse = true) :
    first = second := by
  obtain ⟨context, hcontext, hactive⟩ := (h.inUse first hfirst).mp huse
  obtain ⟨other, hother, hactive'⟩ := (h.inUse second hsecond).mp huse'
  cases hcontext.symm.trans hother
  exact inj_on_of_nodup_map h.numbered hfirst hsecond (hactive.symm.trans hactive')

/-! ## The lives of a stream -/

/-- The life of a stream: configured, and configured anew only while it is open;
opened; started and suspended in turn; and closed. -/
def lifeAfter : StreamState → SinkEvent → Option StreamState
  | state, .reply _ | state, .command _ | state, .suspendRefused => some state
  | .idle, .configured _ _ _ => some .configured
  | .open, .configured _ _ _ => some .open
  | .configured, .opened => some .open
  | .open, .started => some .streaming
  | .streaming, .suspended => some .open
  | .configured, .closed | .open, .closed | .streaming, .closed => some .idle
  | _, _ => none

/-- Where a stream is after some events, if they are lives of a stream. -/
def livesOf (state : StreamState) (events : List SinkEvent) : Option StreamState :=
  events.foldlM lifeAfter state

/-- The configuration that was last announced, of a stream that has not been
closed. -/
def announced (configuration : Option CodecCapability) : SinkEvent → Option CodecCapability
  | .configured _ _ latest => some latest
  | .closed => none
  | _ => configuration

theorem livesOf_append (state : StreamState) (before after : List SinkEvent) :
    livesOf state (before ++ after) = (livesOf state before).bind (livesOf · after) :=
  foldlM_append ..

theorem livesOf_commands (state : StreamState) (report : List Message) :
    livesOf state (report.map .command) = some state := by
  induction report with
  | nil => rfl
  | cons message report ih => exact ih

theorem announced_commands (configuration : Option CodecCapability) (report : List Message) :
    (report.map SinkEvent.command).foldl announced configuration = configuration := by
  induction report with
  | nil => rfl
  | cons message report ih => exact ih

theorem state_teardown (s : SinkSession) : s.teardown.stream = .idle := by
  unfold SinkSession.teardown
  split <;> rfl

theorem closes {context : StreamContext} (hcontext : s.stream.context = some context) :
    livesOf s.stream.state [.closed] = some .idle := by
  cases hstream : s.stream with
  | idle =>
    rw [hstream] at hcontext
    cases hcontext
  | configured _ | «open» _ | streaming _ _ => rfl

/-- **One step** goes on with the life of the stream, and the configuration is
the one that was announced. -/
theorem lives_step (s : SinkSession) (input : SinkInput) :
    livesOf s.stream.state (s.step input).2 = some (s.step input).1.stream.state ∧
      (s.step input).2.foldl announced s.configuration = (s.step input).1.configuration := by
  have hcases := step_cases s input
  generalize s.step input = result at hcases
  obtain ⟨t, events⟩ := result
  dsimp only at hcases ⊢
  cases hcases with
  | refused hcommand hstate hevents | answered hcommand hsignal hstate hevents =>
    subst hstate hevents
    exact ⟨rfl, rfl⟩
  | @configured msg endpoint capability format context report hcommand hsignal hidle hfor hendpoint
      hactive hconfiguration hstream hendpoints hevents =>
      subst hevents
      have hafter : t.configuration = some context.configuration := by
        rw [configuration, hstream]
        rfl
      rw [livesOf_append, foldl_append, hidle, hstream, hafter, hconfiguration]
      exact ⟨livesOf_commands _ _, announced_commands _ _⟩
  | reconfigured hcommand hsignal hopen hfor hendpoint hactive hnamed hstate hevents =>
    subst hstate hevents
    rw [hopen]
    exact ⟨rfl, rfl⟩
  | moved hcommand hmove hstate hevents =>
    subst hstate hevents
    rw [configuration]
    rcases hmove with ⟨-, hbefore, rfl, rfl⟩ | ⟨-, hbefore, rfl, rfl⟩ |
      ⟨-, ⟨_, hbefore⟩, rfl, rfl⟩
    · rw [hbefore]
      exact ⟨rfl, rfl⟩
    · rw [hbefore]
      exact ⟨rfl, rfl⟩
    · rw [hbefore]
      exact ⟨rfl, rfl⟩
  | ended hcommand hsignal hcontext hstate hevents | lost hcontext hstate hevents =>
    subst hstate hevents
    rw [configuration, configuration, state_teardown]
    exact ⟨closes hcontext, rfl⟩
  | quiet hinput hstate hevents =>
    subst hstate hevents
    exact ⟨rfl, rfl⟩
  | asked hstream hstate hevents | heeded hresponse hsignal hstream hstate hevents
  | declined hresponse hsignal hstream hstate hevents =>
    subst hstate hevents
    rw [configuration, hstream]
    exact ⟨rfl, rfl⟩

/-! ## Commands and answers -/

def repliesOf (events : List SinkEvent) : List Message :=
  events.filterMap fun event =>
    match event with
    | .reply message => some message
    | _ => none

theorem repliesOf_commands (report : List Message) : repliesOf (report.map .command) = [] := by
  induction report with
  | nil => rfl
  | cons message report ih => exact ih

/-- A step answers the message it is given, if that is a command, once; it
leaves the session alone if it refuses; and a response moves the session only if
it is the one to our own SUSPEND. -/
structure Answers (s t : SinkSession) (events : List SinkEvent) (input : SinkInput) : Prop where
  one : ∀ msg, input = .message msg → msg.messageType = .command →
    ∃ answer, repliesOf events = [answer] ∧ answer.transaction = msg.transaction ∧
      answer.signal = msg.signal ∧
      (answer.messageType = .responseAccept ∨ answer.messageType = .responseReject)
  none : (∀ msg, input = .message msg → msg.messageType ≠ .command) → repliesOf events = []
  refused : ∀ answer ∈ repliesOf events, answer.messageType = .responseReject →
    t = s ∧ events = [.reply answer]
  response : ∀ msg, input = .message msg → msg.messageType ≠ .command → t ≠ s →
    msg.signal = .suspend ∧ ∃ context, s.stream = .streaming context (some msg.transaction)

/-- An accepted command, whatever else the step says. -/
theorem Answers.accepted (hcommand : msg.messageType = .command)
    {payload : Bytes} {rest : List SinkEvent} (hrest : repliesOf rest = []) :
    Answers s t (.reply (msg.accept payload) :: rest) (.message msg) := by
  have hreplies : repliesOf (.reply (msg.accept payload) :: rest) = [msg.accept payload] :=
    congrArg (msg.accept payload :: ·) hrest
  refine ⟨?_, fun hnone => absurd hcommand (hnone msg rfl), ?_, ?_⟩
  · rintro other ⟨⟩ -
    exact ⟨_, hreplies, rfl, rfl, .inl rfl⟩
  · intro answer hanswer hreject
    rw [hreplies] at hanswer
    cases mem_singleton.mp hanswer
    cases hreject
  · rintro other ⟨⟩ hresponse
    exact absurd hcommand hresponse

theorem Answers.silent (hnone : ∀ msg, input = .message msg → msg.messageType ≠ .command)
    (hreplies : repliesOf events = []) (hresponse : ∀ msg, input = .message msg → t ≠ s →
      msg.signal = .suspend ∧ ∃ context, s.stream = .streaming context (some msg.transaction)) :
    Answers s t events input where
  one := fun msg hinput hcommand => absurd hcommand (hnone msg hinput)
  none := fun _ => hreplies
  refused := fun answer hanswer => by
    rw [hreplies] at hanswer
    cases hanswer
  response := fun msg hinput _ => hresponse msg hinput

theorem answers_step (s : SinkSession) (input : SinkInput) :
    Answers s (s.step input).1 (s.step input).2 input := by
  have hcases := step_cases s input
  generalize s.step input = result at hcases
  obtain ⟨t, events⟩ := result
  dsimp only at hcases ⊢
  cases hcases with
  | @refused msg payload hcommand hstate hevents =>
    subst hstate hevents
    refine ⟨?_, fun hnone => absurd hcommand (hnone msg rfl), ?_, ?_⟩
    · rintro other ⟨⟩ -
      exact ⟨_, rfl, rfl, rfl, .inr rfl⟩
    · intro answer hanswer _
      cases mem_singleton.mp hanswer
      exact ⟨rfl, rfl⟩
    · rintro other ⟨⟩ hresponse
      exact absurd hcommand hresponse
  | answered hcommand hsignal hstate hevents =>
    subst hevents
    exact .accepted hcommand rfl
  | configured hcommand hsignal hidle hfor hendpoint hactive hconfiguration hstream hendpoints
      hevents =>
      subst hevents
      exact .accepted hcommand (repliesOf_commands _)
  | reconfigured hcommand hsignal hopen hfor hendpoint hactive hnamed hstate hevents =>
    subst hevents
    exact .accepted hcommand rfl
  | moved hcommand hmove hstate hevents =>
    subst hevents
    rcases hmove with ⟨-, -, -, rfl⟩ | ⟨-, -, -, rfl⟩ | ⟨-, -, -, rfl⟩
    · exact .accepted hcommand rfl
    · exact .accepted hcommand rfl
    · exact .accepted hcommand rfl
  | ended hcommand hsignal hcontext hstate hevents =>
    subst hevents
    exact .accepted hcommand rfl
  | lost hcontext hstate hevents =>
    subst hevents
    exact .silent nofun rfl nofun
  | quiet hinput hstate hevents =>
    subst hstate hevents
    exact .silent hinput rfl fun _ _ hne => absurd rfl hne
  | asked hstream hstate hevents =>
    subst hevents
    exact .silent nofun rfl nofun
  | heeded hresponse hsignal hstream hstate hevents
  | declined hresponse hsignal hstream hstate hevents =>
    subst hevents
    refine .silent ?_ rfl ?_
    · rintro other ⟨⟩
      exact hresponse
    · rintro other ⟨⟩ -
      exact ⟨hsignal, _, hstream⟩

/-! ## What the peer may name -/

/-- The endpoints that a command names: a list in START and SUSPEND, else the
first byte. -/
def named (msg : Message) : List UInt8 :=
  match msg.signal with
  | .start | .suspend => msg.payload.map fun byte : UInt8 => byte >>> 2
  | _ => (msg.payload.take 1).map fun byte : UInt8 => byte >>> 2

def streamSignals : List Signal := [.open, .start, .suspend, .close, .reconfigure]

/-- A command for the stream is accepted only if it names no other endpoint than
the one that is configured. -/
def Heeds (s : SinkSession) (events : List SinkEvent) (input : SinkInput) : Prop :=
  ∀ msg, input = .message msg → msg.messageType = .command → msg.signal ∈ streamSignals →
    (∃ answer ∈ repliesOf events, answer.messageType = .responseAccept) →
      ∃ context, s.stream.context = some context ∧ ∀ number ∈ named msg, number = context.active.raw

def Offers (s : SinkSession) : Prop :=
  ∀ context, s.stream.context = some context → ∃ endpoint ∈ s.endpoints,
    endpoint.seid = context.active ∧ context.configuration.Within endpoint.capability

/-- The stream that OPEN, START, SUSPEND or CLOSE would move. -/
def moves (s : SinkSession) : Signal → Option StreamContext
  | .open => match s.stream with | .configured context => some context | _ => none
  | .start => match s.stream with | .open context => some context | _ => none
  | .suspend => match s.stream with | .streaming context _ => some context | _ => none
  | .close => s.stream.context
  | _ => none

/-- What the peer must keep to: a command that would move the stream names its
endpoint, and a configuration to accept is one that the endpoint offers. -/
def Proper (s : SinkSession) (input : SinkInput) : Prop :=
  ∀ msg, input = .message msg → msg.messageType = .command →
    (∀ context, s.moves msg.signal = some context →
      ∀ number ∈ named msg, number = context.active.raw) ∧
    ∀ endpoint capability format, s.configures msg = some (endpoint, capability, format) →
      capability.Within endpoint.capability

theorem Offers.keep (h : s.Offers) (hendpoints : t.endpoints = s.endpoints)
    (hcontext : t.stream.context = s.stream.context) : t.Offers := by
  intro context hsome
  rw [hendpoints]
  exact h context (hcontext ▸ hsome)

theorem offers_of_idle (h : s.stream = .idle) : s.Offers := by
  intro context hcontext
  rw [h] at hcontext
  cases hcontext

theorem heeds_of_silent (h : ∀ msg, input = .message msg → msg.messageType ≠ .command) :
    s.Heeds events input := fun msg hinput hcommand => absurd hcommand (h msg hinput)

/-- **One step** of a peer that keeps to the rules. -/
theorem proper_step (h : s.Offers) (hproper : s.Proper input) :
    s.Heeds (s.step input).2 input ∧ (s.step input).1.Offers := by
  have hcases := step_cases s input
  generalize s.step input = result at hcases
  obtain ⟨t, events⟩ := result
  dsimp only at hcases ⊢
  cases hcases with
  | refused hcommand hstate hevents =>
    subst hstate hevents
    refine ⟨?_, h⟩
    rintro other ⟨⟩ - - ⟨answer, hanswer, haccept⟩
    cases mem_singleton.mp hanswer
    cases haccept
  | answered hcommand hsignal hstate hevents =>
    subst hstate
    refine ⟨?_, h⟩
    rintro other ⟨⟩ - hstream
    refine absurd ?_ hsignal
    exact mem_append_left [Signal.setConfiguration] hstream
  | @configured msg endpoint capability format context report hcommand hsignal hidle hfor hendpoint
      hactive hconfiguration hstream hendpoints hevents =>
      refine ⟨?_, fun other hother => ?_⟩
      · rintro other ⟨⟩ - hmem
        rw [hsignal] at hmem
        exact absurd hmem (by decide)
      · rw [hstream] at hother
        cases hother
        obtain ⟨marked, hmarked, hseid, hcapability⟩ :=
          markEndpoint_of_mem endpoint.seid true hendpoint
        refine ⟨marked, hendpoints ▸ hmarked, hseid.trans hactive.symm, ?_⟩
        rw [hconfiguration, hcapability]
        exact (hproper _ rfl hcommand).2 _ _ _ hfor
  | reconfigured hcommand hsignal hopen hfor hendpoint hactive hnamed hstate hevents =>
    subst hstate
    refine ⟨?_, fun other hother => ?_⟩
    · rintro other ⟨⟩ - - -
      refine ⟨_, congrArg Stream.context hopen, fun number hnumber => ?_⟩
      obtain ⟨byte, rest, hpayload, hbyte⟩ := hnamed
      simp only [named, hsignal, hpayload] at hnumber
      cases mem_singleton.mp hnumber
      exact hbyte.trans (congrArg Seid.raw hactive.symm)
    · cases hother
      exact ⟨_, hendpoint, hactive.symm, (hproper _ rfl hcommand).2 _ _ _ hfor⟩
  | @moved msg context event stream hcommand hmove hstate hevents =>
    subst hstate
    obtain ⟨hmoves, hbefore, hafter⟩ : s.moves msg.signal = some context ∧
        s.stream.context = some context ∧ stream.context = some context := by
      rcases hmove with ⟨hsignal, hbefore, rfl, -⟩ | ⟨hsignal, hbefore, rfl, -⟩ |
        ⟨hsignal, ⟨_, hbefore⟩, rfl, -⟩
      · simp only [moves, hsignal, hbefore, Stream.context, and_self]
      · simp only [moves, hsignal, hbefore, Stream.context, and_self]
      · simp only [moves, hsignal, hbefore, Stream.context, and_self]
    refine ⟨?_, h.keep rfl (hafter.trans hbefore.symm)⟩
    rintro other ⟨⟩ - - -
    exact ⟨context, hbefore, (hproper _ rfl hcommand).1 context hmoves⟩
  | ended hcommand hsignal hcontext hstate hevents =>
    subst hstate
    refine ⟨?_, offers_of_idle (state_teardown s)⟩
    rintro other ⟨⟩ - hmem -
    refine ⟨_, hcontext, fun number hnumber => ?_⟩
    rcases hsignal with hclose | habort
    · refine (hproper _ rfl hcommand).1 _ ?_ number hnumber
      rw [hclose]
      exact hcontext
    · rw [habort] at hmem
      exact absurd hmem (by decide)
  | lost hcontext hstate hevents =>
    subst hstate
    exact ⟨heeds_of_silent nofun, offers_of_idle (state_teardown s)⟩
  | quiet hinput hstate hevents =>
    subst hstate
    exact ⟨heeds_of_silent hinput, h⟩
  | asked hstream hstate hevents =>
    subst hstate
    refine ⟨heeds_of_silent nofun, h.keep rfl ?_⟩
    rw [hstream]
    rfl
  | heeded hresponse hsignal hstream hstate hevents
  | declined hresponse hsignal hstream hstate hevents =>
    subst hstate
    refine ⟨heeds_of_silent ?_, h.keep rfl ?_⟩
    · rintro other ⟨⟩
      exact hresponse
    · rw [hstream]
      rfl

end SinkSession

/-! ## Runs -/

structure SinkRun where
  session : SinkSession
  events : List SinkEvent
  deriving DecidableEq

namespace SinkRun

open SinkSession (livesOf livesOf_append announced)

def step (r : SinkRun) (input : SinkInput) : SinkRun where
  session := (r.session.step input).1
  events := r.events ++ (r.session.step input).2

/-- A session that advertises some capabilities and reports a delay. -/
def start (capabilities : List CodecCapability) (delay : ℕ) : SinkRun :=
  ⟨(SinkSession.new capabilities).setReportedDelay delay, []⟩

def run (capabilities : List CodecCapability) (delay : ℕ) (inputs : List SinkInput) : SinkRun :=
  inputs.foldl step (start capabilities delay)

def Proper (r : SinkRun) (input : SinkInput) : Prop := r.session.Proper input

def Answers (r : SinkRun) (input : SinkInput) : Prop :=
  SinkSession.Answers r.session (r.session.step input).1 (r.session.step input).2 input

/-- What is said for an input does not accept a command for another endpoint. -/
def Heeds (r : SinkRun) (input : SinkInput) : Prop :=
  r.session.Heeds (r.session.step input).2 input

/-- The endpoints are in step with the stream, and the events are lives of it.
-/
structure Sound (r : SinkRun) : Prop where
  exact : r.session.Exact
  lives : livesOf .idle r.events = some r.session.stream.state
  configuration : r.events.foldl announced none = r.session.configuration

theorem sound_start (capabilities : List CodecCapability) (delay : ℕ) :
    (start capabilities delay).Sound where
  exact := (SinkSession.exact_new capabilities).keep rfl rfl
  lives := rfl
  configuration := rfl

theorem Sound.step {r : SinkRun} (h : r.Sound) (input : SinkInput) : (r.step input).Sound where
  exact := h.exact.step input
  lives := by
    rw [SinkRun.step, livesOf_append, h.lives]
    exact (SinkSession.lives_step r.session input).1
  configuration := by
    rw [SinkRun.step, foldl_append, h.configuration]
    exact (SinkSession.lives_step r.session input).2

theorem sound_run (capabilities : List CodecCapability) (delay : ℕ) (inputs : List SinkInput) :
    (run capabilities delay inputs).Sound := by
  induction inputs using List.reverseRecOn with
  | nil => exact sound_start capabilities delay
  | append_singleton inputs input ih =>
    rw [run, foldl_concat]
    exact ih.step input

/-- What a peer keeps to is kept for it: every step heeds the endpoint that a
command names, and answers. -/
theorem heeds_run (inputs : List SinkInput) {r : SinkRun} (hoffers : r.session.Offers)
    (h : Along step Proper inputs r) :
    Along step (fun r input => r.Answers input ∧ r.Heeds input) inputs r ∧
      (inputs.foldl step r).session.Offers := by
  induction inputs generalizing r with
  | nil => exact ⟨trivial, hoffers⟩
  | cons input inputs ih =>
    obtain ⟨hproper, hrest⟩ := h
    obtain ⟨hheeds, hnext⟩ := SinkSession.proper_step hoffers hproper
    obtain ⟨halong, hlast⟩ := ih hnext hrest
    exact ⟨⟨⟨SinkSession.answers_step r.session input, hheeds⟩, halong⟩, hlast⟩

/-- **Whatever a peer sends**, the endpoints are in step with the stream, and
the events are lives of it. -/
theorem lives_for_any_peer (capabilities : List CodecCapability) (delay : ℕ)
    (inputs : List SinkInput) : (run capabilities delay inputs).Sound :=
  sound_run capabilities delay inputs

/-- **The sink is sound for a peer that names the endpoint it configured**, and
configures what that endpoint offers.  Every command gets one answer, and a
refused one changes nothing.  An endpoint is in use exactly while it is
configured, and no two are.  The events are lives of a stream, and the
configuration is the one last announced. -/
theorem sink_sound (capabilities : List CodecCapability) (delay : ℕ) (inputs : List SinkInput)
    (h : Along step Proper inputs (start capabilities delay)) :
    Along step (fun r input => r.Answers input ∧ r.Heeds input) inputs
        (start capabilities delay) ∧
      (run capabilities delay inputs).session.Exact ∧
      (∀ first ∈ (run capabilities delay inputs).session.endpoints,
        ∀ second ∈ (run capabilities delay inputs).session.endpoints,
        first.inUse = true → second.inUse = true → first = second) ∧
      livesOf .idle (run capabilities delay inputs).events =
        some (run capabilities delay inputs).session.stream.state ∧
      (run capabilities delay inputs).events.foldl announced none =
        (run capabilities delay inputs).session.configuration ∧
      (run capabilities delay inputs).session.Offers := by
  have hsound := sound_run capabilities delay inputs
  obtain ⟨halong, hoffers⟩ := heeds_run inputs (SinkSession.offers_of_idle rfl) h
  refine ⟨halong, hsound.exact, ?_, hsound.lives, hsound.configuration, hoffers⟩
  intro first hfirst second hsecond huse huse'
  exact hsound.exact.one hfirst hsecond huse huse'

/-! ### A phone -/

def exampleCapabilities : List CodecCapability :=
  [.aptX .common ⟨0b0011⟩, .sbc .all .all 0b1111 0b11 0b11 2 53]

def exampleCommand (signal : Signal) (payload : Bytes) : SinkInput :=
  .message (.command 3 signal payload)

/-- The phone configures the first endpoint for aptX, with the given options. -/
def exampleConfiguration (options : UInt8) : Message :=
  .command 3 .setConfiguration
    ([0x04, 0x08, 0x01, 0x00, 0x07, 0x09] ++ [0x00, 0xFF, 0x4F, 0, 0, 0, 0x01, 0, options])

/-- The phone configures the first endpoint within its offer, plays, and goes.
-/
def exampleRun : List SinkInput :=
  [.message (exampleConfiguration 0x22), exampleCommand .open [0x04], exampleCommand .start [0x04],
    .suspendPeer, .linkDown]

theorem proper_message {s : SinkSession} {msg : Message}
    (hmoves : ∀ context ∈ s.moves msg.signal, ∀ number ∈ SinkSession.named msg,
      number = context.active.raw)
    (hconfigures : ∀ result ∈ s.configures msg, result.2.1.Within result.1.capability) :
    s.Proper (.message msg) := by
  rintro other ⟨⟩ -
  exact ⟨hmoves, fun _ _ _ hresult => hconfigures _ hresult⟩

theorem configures_example : SinkSession.configures (start exampleCapabilities 300000000).session
      (exampleConfiguration 0x22) =
        some (⟨⟨1, by decide⟩, .aptX .common ⟨0b0011⟩, false⟩, .aptX ⟨0b0010⟩ ⟨0b0010⟩,
          ⟨44100, 2, by decide, by decide⟩) := by
  decide

set_option maxRecDepth 2000 in
theorem proper_example : Along step Proper exampleRun (start exampleCapabilities 300000000) := by
  refine ⟨proper_message (by decide) ?_, proper_message (by decide) (fun _ h => by cases h),
    proper_message (by decide) (fun _ h => by cases h), fun _ h => (by cases h),
    fun _ h => (by cases h), trivial⟩
  intro result hresult
  cases configures_example.symm.trans hresult
  exact ⟨by decide, by decide⟩

theorem sink_sound_example : (run exampleCapabilities 300000000 exampleRun).events.length = 8 ∧
      livesOf .idle (run exampleCapabilities 300000000 exampleRun).events = some .idle :=
  ⟨by decide,
    (sink_sound exampleCapabilities 300000000 exampleRun proper_example).2.2.2.1.trans (by decide)⟩

/-- The first endpoint is configured, and an OPEN of the second is accepted; and
the first is configured for a rate and a channel mode that it does not offer. -/
theorem sink_unsound :
    ¬ Along step Heeds [.message (exampleConfiguration 0x22), exampleCommand .open [0x08]]
        (start exampleCapabilities 300000000) ∧
      ¬ (run exampleCapabilities 300000000
        [.message (exampleConfiguration 0x88)]).session.Offers := by
  constructor
  · rintro ⟨-, hopen, -⟩
    obtain ⟨context, hcontext, hnamed⟩ := hopen _ rfl rfl (by decide) (by decide)
    have hactive : context.active.raw = 1 := by
      cases hcontext
      rfl
    exact absurd ((hnamed 2 (by decide)).trans hactive) (by decide)
  · intro hoffers
    have hcontext : (run exampleCapabilities 300000000
        [.message (exampleConfiguration 0x88)]).session.stream.context =
          some ⟨⟨1, by decide⟩, some ⟨2, by decide⟩, .aptX ⟨0b1000⟩ ⟨0b1000⟩, false⟩ := by
      decide
    have hoffer : ∀ endpoint ∈ (run exampleCapabilities 300000000
        [.message (exampleConfiguration 0x88)]).session.endpoints, endpoint.seid.raw = 1 →
          endpoint.capability = .aptX .common ⟨0b0011⟩ := by
      decide
    obtain ⟨endpoint, hendpoint, hactive, hwithin⟩ := hoffers _ hcontext
    rw [hoffer endpoint hendpoint (congrArg Seid.raw hactive)] at hwithin
    exact absurd hwithin.1 (by decide)

end SinkRun

end Castaway.Bluetooth
