import Castaway.Bluetooth.Link
import Castaway.Bluetooth.SinkRuns

/-!
# The audio session of a link

The session manager hears of a link's audio by `audio` and `ended`.  The
signalling session moves on the peer's word and the audio session is moved
beside it, event by event (`audioAfter`), so what a signalling message does to
both is read off `SinkStep`.

**The headline result** is `audio_sound`.  Two things break it, and
`audio_unsound` shows both: a session that a RECONFIGURE replaces is not ended
when the stream is closed before it is started again, and a stream whose
consumer has gone is started without a session.
-/

namespace Castaway.Bluetooth

open Castaway.Core (AudioCodec AudioFormat)
open Castaway.L2cap (Cid L2capEvent Multiplexer Psm)
open List

variable {δ Q A : Type} {configuration : Option CodecCapability} {audio audio' : AudioSession δ}

/-! ## What is announced -/

/-- The session that is announced, after one more emission; none can be ended
that is not announced, and a new one may replace it. -/
def sessionAfter : Option AudioFormat → Emission → Option (Option AudioFormat)
  | _, .audio format => some (some format)
  | some _, .ended => some none
  | none, .ended => none
  | session, _ => some session

/-- The session that is announced after some emissions, if they come in turn. -/
def sessionOf (session : Option AudioFormat) (emitted : List Emission) :
    Option (Option AudioFormat) :=
  emitted.foldlM sessionAfter session

theorem sessionOf_append (session : Option AudioFormat) (before after : List Emission) :
    sessionOf session (before ++ after) = (sessionOf session before).bind (sessionOf · after) :=
  foldlM_append ..

/-! ## What a signalling event does -/

namespace AudioSession

variable (clients : Clients δ Q A) (control : Bool)

/-- The audio session after an event of the signalling session, and what is
emitted. -/
def after (audio : AudioSession δ) : SinkEvent → AudioSession δ × List Emission
  | .configured codec format _ =>
    match audio with
    | .open was old tx =>
      if was = format then
        (.open format (clients.reconfigured old codec format.sampleRate) tx, [])
      else (.configured format (clients.depacketizer codec format.sampleRate), [])
    | _ => (.configured format (clients.depacketizer codec format.sampleRate), [])
  | .started =>
    match audio with
    | .configured format depacketizer =>
      (.open format depacketizer .new,
        [.audio format, .sourceInfo] ++ if control then [.controlSurface] else [])
    | _ => (audio, [])
  | .closed => (.closed, if audio.isOpen then [.ended] else [])
  | _ => (audio, [])

def afterAll : AudioSession δ → List SinkEvent → AudioSession δ × List Emission
  | audio, [] => (audio, [])
  | audio, event :: events =>
    let (next, emitted) := audio.after clients control event
    let (last, rest) := afterAll next events
    (last, emitted ++ rest)

end AudioSession

namespace Link

variable (clients : Clients δ Q A)

/-- What a signalling event leaves alone, and what it does to the audio session.
-/
theorem onSinkEvent_audio (cid : Cid) (link : Link δ Q A) (out : Outbox) (event : SinkEvent) :
    (onSinkEvent clients cid (link, out) event).1.sink = link.sink ∧
      (onSinkEvent clients cid (link, out) event).1.control = link.control ∧
      (onSinkEvent clients cid (link, out) event).1.audio =
        (link.audio.after clients link.control event).1 ∧
      (onSinkEvent clients cid (link, out) event).2.emitted =
        out.emitted ++ (link.audio.after clients link.control event).2 := by
  cases event with
  | reply message | command message | opened | suspended | suspendRefused =>
    exact ⟨rfl, rfl, rfl, (append_nil _).symm⟩
  | closed =>
    refine ⟨rfl, rfl, rfl, ?_⟩
    simp only [onSinkEvent, AudioSession.after]
    split
    · rfl
    · exact (append_nil _).symm
  | configured codec format configuration =>
    cases haudio : link.audio with
    | closed | configured was old => simp [onSinkEvent, AudioSession.after, haudio]
    | «open» was old tx =>
      simp only [onSinkEvent, AudioSession.after, haudio]
      split <;> simp
  | started =>
    cases haudio : link.audio with
    | closed => simp [onSinkEvent, AudioSession.after, haudio]
    | configured format depacketizer =>
      simp only [onSinkEvent, AudioSession.after, haudio]
      split
      · split <;> cases link.control <;> simp [Outbox.emit, Outbox.queueSignalling]
      · cases link.control <;> simp [Outbox.emit]
    | «open» format depacketizer tx =>
      simp only [onSinkEvent, AudioSession.after, haudio]
      split
      · split <;> simp [Outbox.queueSignalling]
      · simp [haudio]

/-- A signalling message moves the signalling session, and the audio session
beside it. -/
theorem onSinkEvents_audio (cid : Cid) (events : List SinkEvent) (link : Link δ Q A)
    (out : Outbox) : (events.foldl (onSinkEvent clients cid) (link, out)).1.sink = link.sink ∧
      (events.foldl (onSinkEvent clients cid) (link, out)).1.audio =
        (link.audio.afterAll clients link.control events).1 ∧
      (events.foldl (onSinkEvent clients cid) (link, out)).2.emitted =
        out.emitted ++ (link.audio.afterAll clients link.control events).2 := by
  induction events generalizing link out with
  | nil => exact ⟨rfl, rfl, (append_nil _).symm⟩
  | cons event events ih =>
    obtain ⟨hsink, hcontrol, haudio, hemitted⟩ := onSinkEvent_audio clients cid link out event
    obtain ⟨hsinks, haudios, hemits⟩ := ih (onSinkEvent clients cid (link, out) event).1
      (onSinkEvent clients cid (link, out) event).2
    rw [foldl_cons, AudioSession.afterAll]
    refine ⟨hsinks.trans hsink, ?_, ?_⟩
    · rw [haudios, hcontrol, haudio]
    · rw [hemits, hemitted, hcontrol, haudio, append_assoc]

/-! ## What an event of the multiplexer does -/

/-- The audio parts of a link are left alone. -/
structure SameAudio (link link' : Link δ Q A) (out out' : Outbox) : Prop where
  sink : link'.sink = link.sink
  audio : link'.audio = link.audio
  emitted : out'.emitted = out.emitted

section

variable (link : Link δ Q A)

theorem SameAudio.refl (out : Outbox) : SameAudio link link out out :=
  ⟨rfl, rfl, rfl⟩

theorem connectCoverArt_audio (psm : UInt16) (out : Outbox) :
    SameAudio link (link.connectCoverArt psm out).1 out (link.connectCoverArt psm out).2 := by
  unfold connectCoverArt
  split
  · exact .refl link out
  · split <;> exact ⟨rfl, rfl, rfl⟩

theorem openCoverArt_audio (out : Outbox) :
    SameAudio link (link.openCoverArt clients out).1 out (link.openCoverArt clients out).2 := by
  unfold openCoverArt
  split
  · exact .refl link out
  · split
    · exact .refl link out
    · split
      · exact connectCoverArt_audio ..
      · split <;> exact ⟨rfl, rfl, rfl⟩

theorem onCoverArtSdp_audio (payload : Bytes) (out : Outbox) :
    SameAudio link (link.onCoverArtSdp clients payload out).1 out
      (link.onCoverArtSdp clients payload out).2 := by
  unfold onCoverArtSdp
  split
  · exact .refl link out
  · split
    · refine ⟨rfl, rfl, ?_⟩
      dsimp only
      split <;> rfl
    · exact ⟨rfl, rfl, rfl⟩
    · dsimp only
      split
      · exact ⟨rfl, rfl, rfl⟩
      · obtain ⟨hsink, haudio, hemitted⟩ := connectCoverArt_audio _ _ _
        exact ⟨hsink, haudio, hemitted⟩

theorem pausePlayer_emitted (out : Outbox) :
    (link.pausePlayer clients out).emitted = out.emitted := by
  unfold pausePlayer
  split <;> rfl

theorem pausePeer_audio (out : Outbox) :
    ((link.pausePeer clients out).1.sink = link.sink ∨
        (link.pausePeer clients out).1.sink = link.sink.suspendPeer.1) ∧
      (link.pausePeer clients out).1.audio = link.audio ∧
      (link.pausePeer clients out).2.emitted = out.emitted := by
  have hemitted := pausePlayer_emitted clients link out
  unfold pausePeer suspendStream
  split
  · exact ⟨.inl rfl, rfl, hemitted⟩
  · split
    next hsuspend => exact ⟨.inr (congrArg Prod.fst hsuspend).symm, rfl, hemitted⟩
    next hsuspend => exact ⟨.inr (congrArg Prod.fst hsuspend).symm, rfl, hemitted⟩

end

/-- The command that an event brings to the signalling session. -/
def signalled (link : Link δ Q A) : L2capEvent → Option Message
  | .data cid psm payload =>
    if link.handlerOf cid psm = some .signaling then (Message.decode payload).toOption else none
  | _ => none

/-- What an event does to the two sessions. -/
inductive AudioStep (clients : Clients δ Q A) (link link' : Link δ Q A) (emitted : List Emission)
    (event : L2capEvent) : Prop
  | kept (hsink : link'.sink = link.sink) (hformat : link'.audio.format = link.audio.format)
      (hopen : link'.audio.isOpen = link.audio.isOpen)
      (hemitted : emitted = [] ∨ emitted = [.controlSurface])
  | signalled {msg : Message} (hmsg : link.signalled event = some msg)
      (hsink : link'.sink = (link.sink.handle msg).1)
      (haudio : link'.audio =
        (link.audio.afterAll clients link.control (link.sink.handle msg).2).1)
      (hemitted : emitted =
        (link.audio.afterAll clients link.control (link.sink.handle msg).2).2)
  | ended (hsink : link'.sink = link.sink ∨ link'.sink = link.sink.suspendPeer.1)
      (hbefore : link.audio.isOpen = true) (hafter : link'.audio.isOpen = false)
      (hformat : ∀ format, link'.audio.format = some format → link.audio.format = some format)
      (hemitted : emitted = [.ended])

theorem AudioStep.of_same {link link' : Link δ Q A} {out : Outbox} {event : L2capEvent}
    (h : SameAudio link link' .empty out) : AudioStep clients link link' out.emitted event :=
  .kept h.sink (congrArg AudioSession.format h.audio) (congrArg AudioSession.isOpen h.audio)
    (.inl h.emitted)

section

variable (link : Link δ Q A)

theorem askFirst_audio (cid : Cid) (out : Outbox) :
    SameAudio link (link.askFirst clients cid out).1 out (link.askFirst clients cid out).2 := by
  unfold askFirst
  split
  · refine ⟨rfl, rfl, ?_⟩
    dsimp only
    split <;> rfl
  · split
    · refine ⟨rfl, rfl, ?_⟩
      dsimp only
      split <;> rfl
    · exact .refl link out

theorem takeRole_audio (cid : Cid) (psm : Psm) (advice : Advice A) :
    (link.takeRole clients cid psm advice .empty).1.sink = link.sink ∧
      (link.takeRole clients cid psm advice .empty).1.audio = link.audio ∧
      ((link.takeRole clients cid psm advice .empty).2.emitted = [] ∨
        (link.takeRole clients cid psm advice .empty).2.emitted = [.controlSurface]) := by
  unfold takeRole
  split
  · split <;> exact ⟨rfl, rfl, .inl rfl⟩
  · split
    · dsimp only
      split
      · obtain ⟨hsink, haudio, hemitted⟩ := openCoverArt_audio clients
          { link with avctp := some cid, control := true }
          { Outbox.empty.emit .controlSurface with
            replies := (Outbox.empty.emit .controlSurface).replies ++ advice.replies }
        exact ⟨hsink, haudio, .inr hemitted⟩
      · obtain ⟨hsink, haudio, hemitted⟩ := openCoverArt_audio clients
          { link with avctp := some cid, control := true }
          { Outbox.empty with replies := Outbox.empty.replies ++ advice.replies }
        exact ⟨hsink, haudio, .inl hemitted⟩
    · exact ⟨rfl, rfl, .inl rfl⟩

theorem onChannelOpen_audio (cid : Cid) (psm : Psm) (advice : Advice A) (event : L2capEvent) :
    AudioStep clients link (link.onChannelOpen clients cid psm advice .empty).1
      (link.onChannelOpen clients cid psm advice .empty).2.emitted event := by
  obtain ⟨hsink, haudio, hemitted⟩ := takeRole_audio clients link cid psm advice
  obtain ⟨hsink', haudio', hemitted'⟩ := askFirst_audio clients
    (link.takeRole clients cid psm advice .empty).1 cid
    (link.takeRole clients cid psm advice .empty).2
  refine .kept (hsink'.trans hsink) (congrArg AudioSession.format (haudio'.trans haudio))
    (congrArg AudioSession.isOpen (haudio'.trans haudio)) ?_
  rw [← hemitted'] at hemitted
  exact hemitted

theorem onChannelClosed_audio (cid : Cid) (event : L2capEvent) :
    AudioStep clients link (link.onChannelClosed clients cid .empty).1
      (link.onChannelClosed clients cid .empty).2.emitted event := by
  unfold onChannelClosed
  split
  · split
    next format depacketizer tx haudio =>
      refine .ended (.inl rfl) ?_ rfl ?_ rfl
      · rw [haudio]
        rfl
      · rintro other hother
        rw [haudio]
        exact hother
    next => exact .kept rfl rfl rfl (.inl rfl)
  · split
    · exact .kept rfl rfl rfl (.inl rfl)
    · split
      · exact .kept rfl rfl rfl (.inl rfl)
      · split
        · exact .kept rfl rfl rfl (.inl rfl)
        · split <;> exact .kept rfl rfl rfl (.inl rfl)

/-- A media packet ends the session only if its consumer has gone. -/
theorem onMedia_audio (payload : Bytes) :
    (link.onMedia clients payload).1.sink = link.sink ∧
      ((link.onMedia clients payload).2 = false ∧
          (link.onMedia clients payload).1.audio.format = link.audio.format ∧
          (link.onMedia clients payload).1.audio.isOpen = link.audio.isOpen ∨
        (link.onMedia clients payload).2 = true ∧ link.audio.isOpen = true ∧
          (link.onMedia clients payload).1.audio = .closed) := by
  unfold onMedia
  cases haudio : link.audio with
  | closed | configured format depacketizer =>
    exact ⟨rfl, .inl ⟨rfl, congrArg _ haudio, congrArg _ haudio⟩⟩
  | «open» format depacketizer tx =>
    dsimp only
    split
    · exact ⟨rfl, .inl ⟨rfl, rfl, rfl⟩⟩
    · split
      · exact ⟨rfl, .inr ⟨rfl, rfl, rfl⟩⟩
      · exact ⟨rfl, .inl ⟨rfl, rfl, rfl⟩⟩

theorem takeMedia_audio (payload : Bytes) (event : L2capEvent) :
    AudioStep clients link (link.takeMedia clients payload .empty).1
      (link.takeMedia clients payload .empty).2.emitted event := by
  obtain ⟨hsink, hcases⟩ := onMedia_audio clients link payload
  unfold takeMedia
  rcases hcases with ⟨hgone, hformat, hopen⟩ | ⟨hgone, hopen, hclosed⟩
  · simp only [hgone]
    exact .kept hsink hformat hopen (.inl rfl)
  · simp only [hgone]
    obtain ⟨hpaused, haudio, hemitted⟩ := pausePeer_audio clients
      (link.onMedia clients payload).1 .empty
    rw [hsink] at hpaused
    rw [hclosed] at haudio
    refine .ended hpaused hopen ?_ ?_ ?_
    · exact congrArg AudioSession.isOpen haudio
    · intro other hother
      cases (congrArg AudioSession.format haudio).symm.trans hother
    · exact congrArg (· ++ [Emission.ended]) hemitted

theorem onAvdtp_audio (cid : Cid) (psm : Psm) (payload : Bytes)
    (hhandler : link.handlerOf cid psm = some .signaling) :
    AudioStep clients link (link.onAvdtp clients cid payload .empty).1
      (link.onAvdtp clients cid payload .empty).2.emitted (.data cid psm payload) := by
  unfold onAvdtp
  split
  · refine .kept rfl rfl rfl (.inl ?_)
    dsimp only
    split <;> rfl
  next msg hmsg =>
    obtain ⟨hsink, haudio, hemitted⟩ := onSinkEvents_audio clients cid
      (link.sink.handle msg).2 { link with sink := (link.sink.handle msg).1 } .empty
    refine .signalled ?_ hsink haudio hemitted
    rw [signalled, if_pos hhandler, hmsg]
    rfl

theorem onData_audio (cid : Cid) (psm : Psm) (payload : Bytes) (advice : Advice A) :
    AudioStep clients link (link.onData clients cid psm payload advice .empty).1
      (link.onData clients cid psm payload advice .empty).2.emitted (.data cid psm payload) := by
  unfold onData
  split
  · exact .of_same clients (onCoverArtSdp_audio ..)
  · exact .kept rfl rfl rfl (.inl rfl)
  · exact .kept rfl rfl rfl (.inl rfl)
  · exact takeMedia_audio ..
  next hhandler => exact onAvdtp_audio clients link cid psm payload hhandler
  · dsimp only
    split
    · obtain ⟨hsink, haudio, hemitted⟩ := openCoverArt_audio clients
        (link.heed advice .empty).1 (link.heed advice .empty).2
      exact .of_same clients ⟨hsink, haudio, hemitted⟩
    · exact .kept rfl rfl rfl (.inl rfl)
  · exact .kept rfl rfl rfl (.inl rfl)

theorem onEvent_audio (event : L2capEvent) (advice : Advice A) :
    AudioStep clients link (link.onEvent clients event advice .empty).1
      (link.onEvent clients event advice .empty).2.emitted event := by
  cases event with
  | send pdu => exact .kept rfl rfl rfl (.inl rfl)
  | channelOpen cid psm peerMtu => exact onChannelOpen_audio ..
  | channelClosed cid psm => exact onChannelClosed_audio ..
  | data cid psm payload => exact onData_audio ..
  | connectFailed psm result => exact .kept rfl rfl rfl (.inl rfl)

end

end Link

/-! ## The two sessions side by side -/

/-- The audio session has the shape of the configuration, and it is announced
while it is open. -/
structure Paired (configuration : Option CodecCapability) (audio : AudioSession δ)
    (session : Option AudioFormat) : Prop where
  format : ∀ shape, audio.format = some shape →
    configuration.bind CodecCapability.format = some shape
  announced : audio.isOpen = true → session = audio.format

/-- The shape that an event announces is that of its configuration. -/
def SinkEvent.Shaped (event : SinkEvent) : Prop :=
  ∀ codec format configuration, event = .configured codec format configuration →
    configuration.format = some format

section Paired

variable (clients : Clients δ Q A) (control : Bool) {configuration : Option CodecCapability}
  {audio : AudioSession δ} {session : Option AudioFormat}

/-- **One event** of the signalling session keeps the two in step, and what it
announces comes in turn. -/
theorem Paired.after (h : Paired configuration audio session) {event : SinkEvent}
    (hshaped : event.Shaped) :
    ∃ next, sessionOf session (audio.after clients control event).2 = some next ∧
      Paired (SinkSession.announced configuration event)
        (audio.after clients control event).1 next := by
  cases event with
  | reply _ | command _ | opened | suspended | suspendRefused => exact ⟨session, rfl, h⟩
  | closed =>
    cases haudio : audio with
    | closed | configured _ _ =>
      refine ⟨session, rfl, fun shape hshape => ?_, fun hopen => ?_⟩
      · cases hshape
      · cases hopen
    | «open» shape depacketizer tx =>
      have hsession : session = some shape := by
        rw [h.announced (by rw [haudio]; rfl), haudio]
        rfl
      refine ⟨none, by rw [hsession]; rfl, fun shape hshape => ?_, fun hopen => ?_⟩
      · cases hshape
      · cases hopen
  | configured codec shape latest =>
    have hlatest := hshaped codec shape latest rfl
    cases haudio : audio with
    | closed | configured _ _ =>
      refine ⟨session, rfl, fun other hother => ?_, fun hopen => ?_⟩
      · cases hother
        exact hlatest
      · cases hopen
    | «open» was depacketizer tx =>
      have hsession : session = some was := by
        rw [h.announced (by rw [haudio]; rfl), haudio]
        rfl
      by_cases hsame : was = shape
      · simp only [AudioSession.after, if_pos hsame]
        refine ⟨session, rfl, fun other hother => ?_, fun _ => ?_⟩
        · cases hother
          exact hlatest
        · rw [hsession, hsame]
          rfl
      · simp only [AudioSession.after, if_neg hsame]
        refine ⟨session, rfl, fun other hother => ?_, fun hopen => ?_⟩
        · cases hother
          exact hlatest
        · cases hopen
  | started =>
    cases haudio : audio with
    | closed =>
      refine ⟨session, rfl, fun shape hshape => ?_, fun hopen => ?_⟩
      · cases hshape
      · cases hopen
    | configured shape depacketizer =>
      refine ⟨some shape, ?_, fun other hother => ?_, fun _ => rfl⟩
      · cases control <;> rfl
      · refine h.format other ?_
        rw [haudio]
        exact hother
    | «open» shape depacketizer tx =>
      rw [haudio] at h
      exact ⟨session, rfl, h⟩

theorem Paired.afterAll {events : List SinkEvent} (h : Paired configuration audio session)
    (hshaped : ∀ event ∈ events, event.Shaped) :
    ∃ next, sessionOf session (audio.afterAll clients control events).2 = some next ∧
      Paired (events.foldl SinkSession.announced configuration)
        (audio.afterAll clients control events).1 next := by
  induction events generalizing configuration audio session with
  | nil => exact ⟨session, rfl, h⟩
  | cons event events ih =>
    obtain ⟨next, hnext, hpaired⟩ := h.after clients control (hshaped event mem_cons_self)
    obtain ⟨last, hlast, hpaired'⟩ := ih hpaired fun other hother =>
      hshaped other (mem_cons_of_mem event hother)
    refine ⟨last, ?_, hpaired'⟩
    rw [AudioSession.afterAll, sessionOf_append, hnext]
    exact hlast

end Paired

namespace SinkSession

theorem format_of_check {endpoint : StreamEndpoint} {list : Bytes} {capability : CodecCapability}
    {format : AudioFormat} (h : checkConfiguration endpoint list = .ok (capability, format)) :
    capability.format = some format := by
  unfold checkConfiguration at h
  split at h
  · cases h
  · split at h
    · cases h
    · split at h
      · cases h
      · split at h
        · cases h
        next hformat =>
          cases h
          exact hformat

theorem format_of_configures {s : SinkSession} {msg : Message} {endpoint : StreamEndpoint}
    {capability : CodecCapability} {format : AudioFormat}
    (h : s.configures msg = some (endpoint, capability, format)) :
    capability.format = some format := by
  have hchecked : ∀ (byte : UInt8) (list : Bytes),
      ((s.endpoint? byte).bind fun found =>
        (checkConfiguration found list).toOption.map fun result => (found, result)) =
          some (endpoint, capability, format) → capability.format = some format := by
    intro byte list hsome
    obtain ⟨found, -, hfound⟩ := Option.bind_eq_some_iff.mp hsome
    obtain ⟨result, hresult, heq⟩ := Option.map_eq_some_iff.mp hfound
    cases heq
    cases hcheck : checkConfiguration endpoint list with
    | error _ =>
      rw [hcheck] at hresult
      cases hresult
    | ok _ =>
      rw [hcheck] at hresult
      cases hresult
      exact format_of_check hcheck
  unfold configures at h
  dsimp only at h
  split at h
  · exact hchecked _ _ h
  · exact hchecked _ _ (Option.filter_eq_some_iff.mp h).1
  · cases h

theorem shaped_step (s : SinkSession) (input : SinkInput) :
    ∀ event ∈ (s.step input).2, event.Shaped := by
  have hcases := step_cases s input
  generalize s.step input = result at hcases
  obtain ⟨t, events⟩ := result
  rintro event hevent codec format configuration rfl
  dsimp only at hcases hevent
  cases hcases with
  | configured hcommand hsignal hidle hfor hendpoint hactive hconfiguration hstream hendpoints
      hevents =>
      rw [hevents] at hevent
      simp only [cons_append, nil_append, mem_cons, mem_map, reduceCtorEq,
        SinkEvent.configured.injEq, false_or, and_false, exists_false, or_false] at hevent
      obtain ⟨-, rfl, rfl⟩ := hevent
      exact format_of_configures hfor
  | reconfigured hcommand hsignal hopen hfor hendpoint hactive hnamed hstate hevents =>
    rw [hevents] at hevent
    simp only [mem_cons, not_mem_nil, reduceCtorEq, SinkEvent.configured.injEq,
      false_or, or_false] at hevent
    obtain ⟨-, rfl, rfl⟩ := hevent
    exact format_of_configures hfor
  | moved hcommand hmove hstate hevents =>
    rw [hevents] at hevent
    rcases hmove with ⟨-, -, -, rfl⟩ | ⟨-, -, -, rfl⟩ | ⟨-, -, -, rfl⟩ <;> simp at hevent
  | refused _ _ hevents | answered _ _ _ hevents | ended _ _ _ _ hevents | lost _ _ hevents
  | quiet _ _ hevents | asked _ _ hevents | heeded _ _ _ _ hevents | declined _ _ _ _ hevents =>
    rw [hevents] at hevent
    simp at hevent

end SinkSession

/-! ## Runs -/

inductive LinkInput (A : Type) where
  /-- The multiplexer tells of something, and what the handlers make of it. -/
  | event (event : L2capEvent) (advice : Advice A)
  /-- The multiplexer goes on by itself. -/
  | muxed (mux : Multiplexer)
  /-- The pipeline takes a frame. -/
  | taken
  /-- The pipeline drops the receiver of the frames. -/
  | consumerGone
  /-- Another phone has started. -/
  | preempted
  | linkDown

namespace AudioSession

/-- The pipeline takes the frame that has waited longest. -/
def take : AudioSession δ → AudioSession δ
  | .open format depacketizer tx => .open format depacketizer { tx with queued := tx.queued.drop 1 }
  | audio => audio

def forsake : AudioSession δ → AudioSession δ
  | .open format depacketizer tx => .open format depacketizer { tx with receiving := false }
  | audio => audio

end AudioSession

/-- A link, while there is one, and what was emitted for it. -/
structure LinkRun (δ Q A : Type) where
  link : Option (Link δ Q A)
  emitted : List Emission

theorem Paired.keep {session : Option AudioFormat} (h : Paired configuration audio session)
    (hformat : audio'.format = audio.format) (hopen : audio'.isOpen = audio.isOpen) :
    Paired configuration audio' session := by
  refine ⟨fun shape hshape => h.format shape (hformat ▸ hshape), fun hopen' => ?_⟩
  rw [hformat]
  exact h.announced (hopen ▸ hopen')

theorem configuration_suspendPeer (sink : SinkSession) :
    sink.suspendPeer.1.configuration = sink.configuration ∧
      sink.suspendPeer.1.stream.state = sink.stream.state := by
  unfold SinkSession.suspendPeer
  split
  next context hstream =>
    split
    · exact ⟨rfl, rfl⟩
    · simp [SinkSession.configuration, hstream, Stream.context, Stream.state]
  · exact ⟨rfl, rfl⟩

theorem session_of_open {session : Option AudioFormat} (h : Paired configuration audio session)
    (hopen : audio.isOpen = true) : sessionOf session [.ended] = some none := by
  cases audio with
  | closed | configured _ _ => cases hopen
  | «open» shape _ _ =>
    rw [h.announced rfl]
    rfl

theorem Paired.ended {session : Option AudioFormat} (h : Paired configuration audio session)
    (hformat : ∀ shape, audio'.format = some shape → audio.format = some shape)
    (hclosed : audio'.isOpen = false) : Paired configuration audio' none := by
  refine ⟨fun shape hshape => h.format shape (hformat shape hshape), fun hopen => ?_⟩
  rw [hclosed] at hopen
  cases hopen

namespace LinkRun

variable (clients : Clients δ Q A)

def start (capabilities : List CodecCapability) (delay : ℕ) : LinkRun δ Q A :=
  ⟨some (.new capabilities delay), []⟩

def step (r : LinkRun δ Q A) (input : LinkInput A) : LinkRun δ Q A :=
  match r.link with
  | none => r
  | some link =>
    match input with
    | .event event advice =>
      let (link, out) := link.onEvent clients event advice .empty
      ⟨some link, r.emitted ++ out.emitted⟩
    | .muxed mux => ⟨some { link with mux }, r.emitted⟩
    | .taken => ⟨some { link with audio := link.audio.take }, r.emitted⟩
    | .consumerGone => ⟨some { link with audio := link.audio.forsake }, r.emitted⟩
    | .preempted =>
      if link.audio.isOpen then
        ⟨some (link.pausePeer clients .empty).1, r.emitted⟩
      else r
    | .linkDown => ⟨none, r.emitted ++ if link.audio.isOpen then [.ended] else []⟩

def run (capabilities : List CodecCapability) (delay : ℕ) (inputs : List (LinkInput A)) :
    LinkRun δ Q A := inputs.foldl (step clients) (start capabilities delay)

variable {r : LinkRun δ Q A}

def session (r : LinkRun δ Q A) : Option AudioFormat := (sessionOf none r.emitted).getD none

/-- What was emitted comes in turn, and the two sessions are in step. -/
structure Sounding (r : LinkRun δ Q A) : Prop where
  inTurn : sessionOf none r.emitted = some r.session
  paired : ∀ link, r.link = some link → Paired link.sink.configuration link.audio r.session

theorem session_of {session : Option AudioFormat} (h : sessionOf none r.emitted = some session) :
    r.session = session := by
  rw [LinkRun.session, h, Option.getD_some]

theorem sounding_of (session : Option AudioFormat) (h : sessionOf none r.emitted = some session)
    (hpaired : ∀ link, r.link = some link → Paired link.sink.configuration link.audio session) :
    r.Sounding := by
  have hsession := session_of h
  subst hsession
  exact ⟨h, hpaired⟩

theorem sounding_start (capabilities : List CodecCapability) (delay : ℕ) :
    (start capabilities delay : LinkRun δ Q A).Sounding := by
  refine sounding_of none rfl ?_
  rintro link ⟨⟩
  exact ⟨fun shape hshape => (by cases hshape), fun hopen => (by cases hopen)⟩

theorem Sounding.say (h : r.Sounding) {emitted : List Emission} (next : Option AudioFormat)
    (hnext : sessionOf r.session emitted = some next) :
    sessionOf none (r.emitted ++ emitted) = some next := by
  rw [sessionOf_append, h.inTurn]
  exact hnext

/-- **One step** keeps the sessions in step, whoever the peer is. -/
theorem Sounding.step (h : r.Sounding) (input : LinkInput A) : (r.step clients input).Sounding := by
  unfold LinkRun.step
  split
  · exact h
  next link hlink =>
    have hpaired := h.paired link hlink
    cases input with
    | event event advice =>
      have hstep := Link.onEvent_audio clients link event advice
      dsimp only
      generalize link.onEvent clients event advice .empty = result at hstep
      obtain ⟨link', out⟩ := result
      dsimp only at hstep ⊢
      cases hstep with
      | kept hsink hformat hopen hemitted =>
        refine sounding_of _ (h.say r.session ?_) ?_
        · rcases hemitted with hemitted | hemitted <;> rw [hemitted]
          · rfl
          · cases r.session <;> rfl
        · rintro _ ⟨⟩
          rw [hsink]
          exact hpaired.keep hformat hopen
      | @signalled msg hmsg hsink haudio hemitted =>
        obtain ⟨next, hnext, hafter⟩ := hpaired.afterAll clients link.control
          (SinkSession.shaped_step link.sink (.message msg))
        refine sounding_of _ (h.say next (hemitted ▸ hnext)) ?_
        rintro _ ⟨⟩
        rw [hsink, haudio]
        rw [(SinkSession.lives_step link.sink (.message msg)).2] at hafter
        exact hafter
      | ended hsink hbefore hafter hformat hemitted =>
        refine sounding_of _ (h.say none ?_) ?_
        · rw [hemitted]
          exact session_of_open hpaired hbefore
        · rintro _ ⟨⟩
          have hconfiguration : link'.sink.configuration = link.sink.configuration := by
            rcases hsink with hsink | hsink
            · rw [hsink]
            · rw [hsink, (configuration_suspendPeer link.sink).1]
          rw [hconfiguration]
          exact hpaired.ended hformat hafter
    | muxed mux =>
      refine sounding_of _ h.inTurn ?_
      rintro _ ⟨⟩
      exact hpaired
    | taken | consumerGone =>
      refine sounding_of _ h.inTurn ?_
      rintro _ ⟨⟩
      refine hpaired.keep ?_ ?_ <;> cases link.audio <;> rfl
    | preempted =>
      dsimp only
      split
      · obtain ⟨hsink, haudio, -⟩ := Link.pausePeer_audio clients link .empty
        refine sounding_of _ h.inTurn ?_
        rintro _ ⟨⟩
        have hconfiguration : (link.pausePeer clients .empty).1.sink.configuration =
            link.sink.configuration := by
          rcases hsink with hsink | hsink
          · rw [hsink]
          · rw [hsink, (configuration_suspendPeer link.sink).1]
        rw [hconfiguration, haudio]
        exact hpaired
      · exact h
    | linkDown =>
      dsimp only
      split
      next hopen =>
        refine sounding_of _ (h.say none (session_of_open hpaired hopen)) ?_
        rintro _ ⟨⟩
      next =>
        refine sounding_of _ (h.say r.session rfl) ?_
        rintro _ ⟨⟩

/-! ## What the peer and the pipeline must keep to -/

/-- A session is announced that no sender feeds: a reconfiguration has replaced
it. -/
def Replaced (r : LinkRun δ Q A) : Prop :=
  r.session ≠ none ∧ ∀ link, r.link = some link → link.audio.isOpen = false

def commanded (link : Link δ Q A) : LinkInput A → Option Message
  | .event event _ => (link.signalled event).filter fun msg => msg.messageType == .command
  | _ => none

/-- A session that was replaced is started again before the stream is closed,
and a stream is not started when its consumer has gone and it was not configured
since. -/
structure Proper (r : LinkRun δ Q A) (input : LinkInput A) : Prop where
  lost : r.Replaced → r.link ≠ none → input ≠ .linkDown
  closed : r.Replaced → ∀ link, r.link = some link → ∀ msg, commanded link input = some msg →
    msg.signal ≠ .close ∧ msg.signal ≠ .abort
  started : ∀ link, r.link = some link → ∀ msg, commanded link input = some msg →
    msg.signal = .start → link.sink.stream.state = .open → link.audio.format ≠ none

/-- A step that starts the stream leaves a session announced that has the shape
of the configuration. -/
def Announces (r : LinkRun δ Q A) (input : LinkInput A) : Prop :=
  ∀ link link', r.link = some link → (r.step clients input).link = some link' →
    link.sink.stream.state ≠ .streaming → link'.sink.stream.state = .streaming →
      ∃ shape, (r.step clients input).session = some shape ∧
        link'.sink.configuration.bind CodecCapability.format = some shape

/-- No session is announced of a link that is gone, or whose stream is idle. -/
def Quiet (r : LinkRun δ Q A) : Prop :=
  ∀ shape, r.session = some shape →
    ∃ link, r.link = some link ∧ link.sink.stream ≠ .idle

theorem quiet_start (capabilities : List CodecCapability) (delay : ℕ) :
    (start capabilities delay : LinkRun δ Q A).Quiet := fun _ hshape => by cases hshape

/-- The audio session after a signalling command that closes the stream, or has
no bearing on it. -/
theorem Quiet.signalled (h : r.Quiet) (hsound : r.Sounding) {link : Link δ Q A}
    (hlink : r.link = some link) {msg : Message} {next : Option AudioFormat}
    (hclosed : r.Replaced → msg.messageType = .command → msg.signal ≠ .close ∧ msg.signal ≠ .abort)
    (hnext : sessionOf r.session (link.audio.afterAll clients link.control
      (link.sink.handle msg).2).2 = some next)
    (hidle : (link.sink.handle msg).1.stream = .idle) : next = none := by
  have hcases := SinkSession.step_cases link.sink (.message msg)
  simp only [SinkSession.step] at hcases
  have hnone : link.sink.stream = .idle → r.session = none := by
    intro hbefore
    by_contra hsome
    obtain ⟨shape, hshape⟩ := Option.ne_none_iff_exists'.mp hsome
    obtain ⟨other, hother, hbusy⟩ := h shape hshape
    cases hlink.symm.trans hother
    exact hbusy hbefore
  generalize link.sink.handle msg = result at hcases hnext hidle
  obtain ⟨t, events⟩ := result
  dsimp only at hcases hnext hidle
  cases hcases with
  | refused hcommand hstate hevents | answered hcommand hsignal hstate hevents
  | quiet hinput hstate hevents =>
    subst hstate hevents
    rw [hnone hidle] at hnext
    cases hnext
    rfl
  | configured hcommand hsignal _ hfor hendpoint hactive hconfiguration hstream =>
    cases hstream.symm.trans hidle
  | reconfigured hcommand hsignal hopen hfor hendpoint hactive hnamed hstate hevents =>
    subst hstate
    cases hidle
  | moved hcommand hmove hstate hevents =>
    subst hstate
    rcases hmove with ⟨-, -, rfl, -⟩ | ⟨-, -, rfl, -⟩ | ⟨-, -, rfl, -⟩ <;> cases hidle
  | heeded hresponse hsignal hstream hstate hevents
  | declined hresponse hsignal hstream hstate hevents =>
    subst hstate
    cases hidle
  | ended hcommand hsignal hcontext hstate hevents =>
    subst hevents
    cases haudio : link.audio.isOpen with
    | true =>
      have hpaired := hsound.paired link hlink
      have hended := session_of_open hpaired haudio
      simp only [AudioSession.afterAll, AudioSession.after, haudio, if_true, nil_append,
        append_nil] at hnext
      exact Option.some_inj.mp (hnext.symm.trans hended)
    | false =>
      simp only [AudioSession.afterAll, AudioSession.after, haudio, Bool.false_eq_true, if_false,
        append_nil] at hnext
      cases hnext
      by_contra hsome
      obtain ⟨hclose, habort⟩ := hclosed ⟨hsome, fun other hother => by
        cases hlink.symm.trans hother
        exact haudio⟩ hcommand
      exact hsignal.elim hclose habort

theorem commanded_of_signalled {link : Link δ Q A} {event : L2capEvent} {advice : Advice A}
    {msg : Message} (hmsg : link.signalled event = some msg)
    (hcommand : msg.messageType = .command) : commanded link (.event event advice) = some msg := by
  rw [commanded, hmsg]
  exact Option.filter_eq_some_iff.mpr ⟨rfl, by rw [hcommand]; rfl⟩

theorem idle_of_state {stream : Stream} : stream.state = .idle ↔ stream = .idle := by
  cases stream <;> simp [Stream.state]

/-- A step that leaves the stream busy, or the session as it was. -/
theorem quiet_of {s : LinkRun δ Q A} (session : Option AudioFormat)
    (hsession : sessionOf none s.emitted = some session)
    (h : ∀ shape, session = some shape → ∃ link, s.link = some link ∧ link.sink.stream ≠ .idle) :
    s.Quiet := by
  intro shape hshape
  rw [session_of hsession] at hshape
  exact h shape hshape

/-- **One step** of a peer that keeps to the rules. -/
theorem Quiet.step (h : r.Quiet) (hsound : r.Sounding) {input : LinkInput A}
    (hproper : r.Proper input) : (r.step clients input).Quiet := by
  unfold LinkRun.step
  split
  · exact h
  next link hlink =>
    have hpaired := hsound.paired link hlink
    have hbusy : ∀ shape, r.session = some shape → link.sink.stream ≠ .idle := by
      intro shape hshape
      obtain ⟨other, hother, hbusy⟩ := h shape hshape
      cases hlink.symm.trans hother
      exact hbusy
    cases input with
    | event event advice =>
      have hstep := Link.onEvent_audio clients link event advice
      dsimp only
      generalize link.onEvent clients event advice .empty = result at hstep
      obtain ⟨link', out⟩ := result
      dsimp only at hstep ⊢
      cases hstep with
      | kept hsink hformat hopen hemitted =>
        refine quiet_of r.session (hsound.say r.session ?_) fun shape hshape => ?_
        · rcases hemitted with hemitted | hemitted <;> rw [hemitted]
          · rfl
          · cases r.session <;> rfl
        · exact ⟨link', rfl, hsink ▸ hbusy shape hshape⟩
      | @signalled msg hmsg hsink haudio hemitted =>
        obtain ⟨next, hnext, -⟩ := hpaired.afterAll clients link.control
          (SinkSession.shaped_step link.sink (.message msg))
        refine quiet_of next (hsound.say next (hemitted ▸ hnext)) fun shape hshape => ?_
        refine ⟨link', rfl, fun hidle => ?_⟩
        rw [hsink] at hidle
        cases (h.signalled clients hsound hlink (fun hreplaced hcommand =>
          hproper.closed hreplaced link hlink msg (commanded_of_signalled hmsg hcommand))
          hnext hidle).symm.trans hshape
      | ended hsink hbefore hafter hformat hemitted =>
        refine quiet_of none (hsound.say none ?_) fun shape hshape => by cases hshape
        rw [hemitted]
        exact session_of_open hpaired hbefore
    | muxed mux | taken | consumerGone => exact fun shape hshape => ⟨_, rfl, hbusy shape hshape⟩
    | preempted =>
      dsimp only
      split
      · obtain ⟨hsink, -, -⟩ := Link.pausePeer_audio clients link .empty
        refine fun shape hshape => ⟨_, rfl, fun hidle => hbusy shape hshape ?_⟩
        rcases hsink with hsink | hsink
        · rwa [hsink] at hidle
        · rw [hsink, ← idle_of_state, (configuration_suspendPeer link.sink).2] at hidle
          exact idle_of_state.mp hidle
      · exact h
    | linkDown =>
      dsimp only
      cases haudio : link.audio.isOpen with
      | true =>
        refine quiet_of none (hsound.say none (session_of_open hpaired haudio)) ?_
        intro shape hshape
        cases hshape
      | false =>
        refine quiet_of r.session (hsound.say r.session rfl) fun shape hshape => ?_
        refine absurd rfl (hproper.lost ⟨?_, ?_⟩ ?_)
        · rw [hshape]
          exact Option.some_ne_none shape
        · intro other hother
          cases hlink.symm.trans hother
          exact haudio
        · rw [hlink]
          exact Option.some_ne_none link

theorem open_of_started {link : Link δ Q A} {msg : Message}
    (hstarted : msg.messageType = .command → msg.signal = .start →
      link.sink.stream.state = .open → link.audio.format ≠ none)
    (hbefore : link.sink.stream.state ≠ .streaming)
    (hafter : (link.sink.handle msg).1.stream.state = .streaming) :
    (link.audio.afterAll clients link.control (link.sink.handle msg).2).1.isOpen = true := by
  have hcases := SinkSession.step_cases link.sink (.message msg)
  simp only [SinkSession.step] at hcases
  generalize link.sink.handle msg = result at hcases hafter
  obtain ⟨t, events⟩ := result
  dsimp only at hcases hafter ⊢
  cases hcases with
  | moved hcommand hmove hstate hevents =>
    subst hstate hevents
    rcases hmove with ⟨-, -, rfl, -⟩ | ⟨hsignal, hopen, -, rfl⟩ | ⟨-, ⟨_, hstream⟩, rfl, -⟩
    · cases hafter
    · have hformat := hstarted hcommand hsignal (by rw [hopen]; rfl)
      cases haudio : link.audio with
      | closed => exact absurd (by rw [haudio]; rfl) hformat
      | configured _ _ | «open» _ _ _ => rfl
    · cases hafter
  | refused hcommand hstate hevents | answered hcommand hsignal hstate hevents
  | quiet hinput hstate hevents => exact absurd (hstate ▸ hafter) hbefore
  | configured hcommand hsignal hidle hfor hendpoint hactive hconfiguration hstream =>
    rw [hstream] at hafter
    cases hafter
  | reconfigured hcommand hsignal hopen hfor hendpoint hactive hnamed hstate hevents =>
    subst hstate
    cases hafter
  | ended hcommand hsignal hcontext hstate hevents =>
    subst hstate
    rw [SinkSession.state_teardown] at hafter
    cases hafter
  | heeded hresponse hsignal hstream hstate hevents
  | declined hresponse hsignal hstream hstate hevents =>
    rw [hstream] at hbefore
    exact absurd rfl hbefore

theorem announces_step (h : r.Sounding) {input : LinkInput A} (hproper : r.Proper input) :
    r.Announces clients input := by
  intro link link' hlink hlink' hbefore hafter
  have hsound := h.step clients input
  have hpaired := hsound.paired link' hlink'
  suffices hopen : link'.audio.isOpen = true by
    cases haudio : link'.audio with
    | closed | configured _ _ =>
      rw [haudio] at hopen
      cases hopen
    | «open» shape depacketizer tx =>
      have hformat : link'.audio.format = some shape := by
        rw [haudio]
        rfl
      exact ⟨shape, (hpaired.announced hopen).trans hformat, hpaired.format shape hformat⟩
  have hsame : link'.sink = link.sink ∨ link'.sink = link.sink.suspendPeer.1 →
      link'.audio.isOpen = true := by
    rintro (hsink | hsink)
    · rw [hsink] at hafter
      exact absurd hafter hbefore
    · rw [hsink, (configuration_suspendPeer link.sink).2] at hafter
      exact absurd hafter hbefore
  unfold LinkRun.step at hlink'
  rw [hlink] at hlink'
  cases input with
  | event event advice =>
    have hstep := Link.onEvent_audio clients link event advice
    obtain rfl : (link.onEvent clients event advice .empty).1 = link' := Option.some.inj hlink'
    cases hstep with
    | kept hsink hformat hopen hemitted => exact hsame (.inl hsink)
    | ended hsink hwas hafter' hformat hemitted => exact hsame hsink
    | @signalled msg hmsg hsink haudio hemitted =>
      rw [hsink] at hafter
      rw [haudio]
      exact open_of_started clients (fun hcommand hsignal hstate =>
        hproper.started link hlink msg (commanded_of_signalled hmsg hcommand) hsignal hstate)
        hbefore hafter
  | muxed mux | taken | consumerGone =>
    cases hlink'
    exact hsame (.inl rfl)
  | preempted =>
    dsimp only at hlink'
    split at hlink'
    · cases hlink'
      exact hsame (Link.pausePeer_audio clients link .empty).1
    · cases hlink.symm.trans hlink'
      exact hsame (.inl rfl)
  | linkDown => cases hlink'

/-- **A link's audio is announced and ended as its stream lives**, for a peer
that starts a session it replaced before it closes it, and does not start a
stream whose consumer has gone.

* Sessions are announced and ended in turn, and a new one may replace the last.
* None is announced once the stream is idle or the link is gone.
* A stream that is started has a session of the configuration's shape. -/
theorem audio_sound (capabilities : List CodecCapability) (delay : ℕ) (inputs : List (LinkInput A))
    (h : Along (step clients) Proper inputs (start capabilities delay)) :
    Along (step clients) (Announces clients) inputs (start capabilities delay) ∧
      sessionOf none (run clients capabilities delay inputs).emitted =
        some (run clients capabilities delay inputs).session ∧
      ((∀ link, (run clients capabilities delay inputs).link = some link →
        link.sink.stream = .idle) → (run clients capabilities delay inputs).session = none) := by
  have hstart : (start capabilities delay : LinkRun δ Q A).Sounding ∧
      (start capabilities delay : LinkRun δ Q A).Quiet :=
    ⟨sounding_start capabilities delay, quiet_start capabilities delay⟩
  have hstep : ∀ (r : LinkRun δ Q A) (input : LinkInput A), r.Sounding ∧ r.Quiet →
      r.Proper input → (r.step clients input).Sounding ∧ (r.step clients input).Quiet :=
    fun r input hboth hproper => ⟨hboth.1.step clients input, hboth.2.step clients hboth.1 hproper⟩
  obtain ⟨hsound, hquiet⟩ := h.foldl (fun r => r.Sounding ∧ r.Quiet) hstart hstep
  refine ⟨?_, hsound.inTurn, fun hidle => ?_⟩
  · exact h.imp_of_invariant (fun r => r.Sounding ∧ r.Quiet) hstart fun r input hboth hproper =>
      ⟨announces_step clients hboth.1 hproper, hstep r input hboth hproper⟩
  · by_contra hsome
    obtain ⟨shape, hshape⟩ := Option.ne_none_iff_exists'.mp hsome
    obtain ⟨link, hlink, hbusy⟩ := hquiet shape hshape
    exact hbusy (hidle link hlink)

/-! ### A phone -/

/-- Media packets are read past their RTP header, and there is no cover art. -/
def exampleClients : Clients Unit Unit Unit where
  depacketizer := fun _ _ => ()
  reconfigured := fun _ _ _ => ()
  push := fun _ payload => ((), if payload.length ≤ 12 then none else some (payload.drop 12))
  query := ()
  nextRequest := fun _ => none
  feed := fun _ _ => ((), .ok true)
  coverArtPsm := fun _ => none
  session := fun _ => ((), none)
  fetching := fun _ => false
  sdp := fun _ => []
  pause := []

def exampleEvent (event : L2capEvent) : LinkInput Unit := .event event ⟨[], id, false⟩

def exampleSignal (msg : Message) : LinkInput Unit :=
  exampleEvent (.data ⟨0x40⟩ .avdtp msg.encode)

def exampleOrder (signal : Signal) : LinkInput Unit := exampleSignal (.command 3 signal [0x04])

def examplePlays : List (LinkInput Unit) :=
  [exampleEvent (.channelOpen ⟨0x40⟩ .avdtp 672), exampleSignal (SinkRun.exampleConfiguration 0x22),
    exampleOrder .open, exampleEvent (.channelOpen ⟨0x41⟩ .avdtp 672), exampleOrder .start]

/-- The phone changes the rate of the stream while it is suspended, and closes
it. -/
def exampleReplaces : List (LinkInput Unit) :=
  examplePlays ++ [exampleOrder .suspend,
    exampleSignal (.command 3 .reconfigure
      [0x04, 0x07, 0x09, 0x00, 0xFF, 0x4F, 0, 0, 0, 0x01, 0, 0x12]),
    exampleOrder .close]

/-- The pipeline lets go of the stream, and the phone suspends it and starts it
again. -/
def exampleResumes : List (LinkInput Unit) :=
  examplePlays ++ [.consumerGone, exampleEvent (.data ⟨0x41⟩ .avdtp (.replicate 20 0)),
    exampleOrder .suspend, exampleOrder .start]

/-- No session has been replaced, and the stream can be started. -/
theorem proper_of {input : LinkInput A} (link : Link δ Q A) (hlink : r.link = some link)
    (hsession : r.session = none ∨ link.audio.isOpen = true)
    (hstarted : ∀ msg ∈ commanded link input, msg.signal = .start →
      link.sink.stream.state = .open → link.audio.format ≠ none) : r.Proper input := by
  have hnot : ¬ r.Replaced := by
    rintro ⟨hsome, hclosed⟩
    rcases hsession with hnone | hopen
    · exact hsome hnone
    · rw [hclosed link hlink] at hopen
      cases hopen
  refine ⟨fun h => absurd h hnot, fun h => absurd h hnot, ?_⟩
  rintro other hother msg hmsg
  cases hlink.symm.trans hother
  exact hstarted msg hmsg

set_option maxRecDepth 4000 in
theorem proper_example : Along (step exampleClients) Proper (examplePlays ++ [.linkDown])
    (start SinkRun.exampleCapabilities 300000000) := by
  refine ⟨proper_of _ rfl (by decide) (by decide), proper_of _ rfl (by decide) (by decide),
    proper_of _ rfl (by decide) (by decide), proper_of _ rfl (by decide) (by decide),
    proper_of _ rfl (by decide) (by decide), proper_of _ rfl (by decide) (by decide), trivial⟩

theorem audio_sound_example : (run exampleClients SinkRun.exampleCapabilities 300000000
      (examplePlays ++ [.linkDown])).emitted.length = 3 ∧
      (run exampleClients SinkRun.exampleCapabilities 300000000
        (examplePlays ++ [.linkDown])).session = none :=
  ⟨by decide, (audio_sound exampleClients SinkRun.exampleCapabilities 300000000
    (examplePlays ++ [.linkDown]) proper_example).2.2 (fun _ hlink => by cases hlink)⟩

/-- The session that the new rate replaced is not ended when the stream is
closed, and the stream whose consumer has gone is started without a session. -/
theorem audio_unsound :
    ((∀ link, (run exampleClients SinkRun.exampleCapabilities 300000000 exampleReplaces).link =
        some link → link.sink.stream = .idle) ∧
      (run exampleClients SinkRun.exampleCapabilities 300000000 exampleReplaces).session ≠ none) ∧
    ¬ Along (step exampleClients) (Announces exampleClients) exampleResumes
      (start SinkRun.exampleCapabilities 300000000) := by
  refine ⟨⟨?_, by decide⟩, fun h => ?_⟩
  · have hidle : ∀ link ∈ (run exampleClients SinkRun.exampleCapabilities 300000000
        exampleReplaces).link, link.sink.stream = .idle := by
      decide
    exact hidle
  · have hannounces := h.getElem (by decide : 8 < exampleResumes.length)
    obtain ⟨shape, hshape, -⟩ := hannounces _ _ rfl rfl (by decide) (by decide)
    have hnone : (run exampleClients SinkRun.exampleCapabilities 300000000
        exampleResumes).session = none := by
      decide
    cases hnone.symm.trans hshape

end LinkRun

end Castaway.Bluetooth
