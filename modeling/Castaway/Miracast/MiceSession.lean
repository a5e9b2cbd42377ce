import Castaway.Miracast.MiceRoundTrip
import Mathlib.Data.List.Induction

/-!
# A control channel acts once

`MiceSession` is driven by messages, by ticks of the establishment timer, and by
the word that RTSP came up or that the projection stops.  `step_cases` says what
one of them can do: nothing, start the projection, or close.  `Acts` is what a
run keeps of that.

A `SOURCE_READY` is acted on after session requests alone, and none of them
asked for DTLS (`Acts.requests`).  The reader refuses a request for a PIN
without DTLS, and the session does not: given one, it waits for the
`SOURCE_READY` and projects.
-/

namespace Castaway.Mice

open List

def establishmentTimeout : ℕ := 30 * 1000000000

/-- `Duration::MAX` -/
def durationMax : ℕ := (2 ^ 64 - 1) * 1000000000 + 999999999

inductive CloseReason where
  | sourceStopped
  | establishmentTimeout
  | unsupported (what : String)
  | unexpected (what : String)
  deriving DecidableEq, Repr

inductive MiceState where
  | fresh
  | projecting (friendlyName : Option String) (rtspPort : UInt16) (sourceId : SourceId)
  | closed (reason : CloseReason)
  deriving DecidableEq, Repr

inductive MiceOutput where
  | send (message : MiceMessage)
  | project (rtspPort : UInt16) (friendlyName : Option String)
  | close (reason : CloseReason)
  deriving DecidableEq, Repr

structure MiceSession where
  state : MiceState := .fresh
  friendlyName : String
  /-- How long the channel has existed without RTSP. -/
  sinceOpen : ℕ := 0
  established : Bool := false
  deriving DecidableEq, Repr

def MiceState.isClosed : MiceState → Bool
  | closed _ => true
  | _ => false

namespace MiceSession

def new (friendlyName : String) : MiceSession := { friendlyName := friendlyName }

def rtspEstablished (session : MiceSession) : MiceSession := { session with established := true }

def close (session : MiceSession) (reason : CloseReason) : MiceSession × List MiceOutput :=
  if session.state.isClosed then (session, [])
  else ({ session with state := .closed reason }, [.close reason])

def tick (session : MiceSession) (elapsed : ℕ) : MiceSession × List MiceOutput :=
  if session.established || session.state.isClosed then (session, [])
  else
    -- `saturating_add`
    let session := { session with sinceOpen := min (session.sinceOpen + elapsed) durationMax }
    if session.sinceOpen < establishmentTimeout then (session, [])
    else session.close .establishmentTimeout

def onMessage (session : MiceSession) (message : MiceMessage) : MiceSession × List MiceOutput :=
  match session.state, message with
  | .fresh, .sourceReady friendlyName rtspPort sourceId =>
    ({ session with state := .projecting friendlyName rtspPort sourceId },
      [.project rtspPort friendlyName])
  | _, .stopProjection _ _ => session.close .sourceStopped
  | state, .sessionRequest friendlyName sourceId security =>
    if security.dtls then session.close (.unsupported "DTLS stream encryption")
    else match state with
      -- it names the source, and the message that matters has not arrived
      | .fresh => (session, [])
      | _ => session.close
        (.unexpected (MiceMessage.sessionRequest friendlyName sourceId security).name)
  | _, .securityHandshake _ => session.close (.unsupported "a DTLS security handshake")
  | _, .pinChallenge _ _ => session.close (.unsupported "PIN-protected projection")
  | _, other => session.close (.unexpected other.name)

def stop (session : MiceSession) : MiceSession × List MiceOutput :=
  let farewell : List MiceOutput := match session.state with
    | .projecting _ _ sourceId => [.send (.stopProjection (some session.friendlyName) sourceId)]
    | _ => []
  let (session, out) := session.close .sourceStopped
  (session, farewell ++ out)

end MiceSession

/-! ## Runs -/

/-- What a session is given. -/
inductive Event where
  | message (message : MiceMessage)
  | tick (elapsed : ℕ)
  | stop
  | rtspEstablished
  deriving DecidableEq

namespace MiceSession

def step (session : MiceSession) : Event → MiceSession × List MiceOutput
  | .message message => session.onMessage message
  | .tick elapsed => session.tick elapsed
  | .stop => session.stop
  | .rtspEstablished => (session.rtspEstablished, [])

def act (run : MiceSession × List MiceOutput) (event : Event) : MiceSession × List MiceOutput :=
  ((run.1.step event).1, run.2 ++ (run.1.step event).2)

def run (friendlyName : String) (events : List Event) : MiceSession × List MiceOutput :=
  events.foldl act (new friendlyName, [])

theorem run_concat (friendlyName : String) (events : List Event) (event : Event) :
    run friendlyName (events ++ [event]) = act (run friendlyName events) event :=
  foldl_concat ..

end MiceSession

def MiceOutput.isProject : MiceOutput → Bool
  | project _ _ => true
  | _ => false

def MiceOutput.isClose : MiceOutput → Bool
  | close _ => true
  | _ => false

def MiceOutput.isSend : MiceOutput → Bool
  | send _ => true
  | _ => false

@[simp] theorem MiceOutput.isProject_project (rtspPort : UInt16) (friendlyName : Option String) :
    (project rtspPort friendlyName).isProject = true := rfl

@[simp] theorem MiceOutput.isProject_close (reason : CloseReason) :
    (close reason).isProject = false := rfl

@[simp] theorem MiceOutput.isClose_project (rtspPort : UInt16) (friendlyName : Option String) :
    (project rtspPort friendlyName).isClose = false := rfl

@[simp] theorem MiceOutput.isClose_close (reason : CloseReason) :
    (close reason).isClose = true := rfl

def MiceMessage.plainRequest : MiceMessage → Bool
  | sessionRequest _ _ security => !security.dtls
  | _ => false

/-- Time passes as far as the timer counts it. -/
def ticks (events : List Event) : ℕ :=
  (events.map fun event => match event with
    | .tick elapsed => elapsed
    | _ => 0).sum

namespace MiceSession

variable {session : MiceSession} {friendlyName : String} {events : List Event} {event : Event}

/-- What one event can do. -/
inductive Outcome (session : MiceSession) (event : Event) :
    MiceSession × List MiceOutput → Prop
  | quiet {session' : MiceSession} (hstate : session'.state = session.state)
      (hmessage : session.state = .fresh → ∀ message, event = .message message →
        message.plainRequest) : Outcome session event (session', [])
  | projects {session' : MiceSession} {name : Option String} {port : UInt16} {id : SourceId}
      (hevent : event = .message (.sourceReady name port id)) (hstate : session.state = .fresh)
      (hafter : session'.state = .projecting name port id) :
      Outcome session event (session', [.project port name])
  | closes {session' : MiceSession} {reason : CloseReason} (sends : List MiceOutput)
      (hopen : session.state.isClosed = false) (hafter : session'.state = .closed reason)
      (hsends : ∀ output ∈ sends, output.isSend) :
      Outcome session event (session', sends ++ [.close reason])

theorem Outcome.of_state {session' : MiceSession} {result : MiceSession × List MiceOutput}
    (h : Outcome session' event result) (hstate : session'.state = session.state) :
    Outcome session event result := by
  cases h with
  | quiet hafter hmessage =>
    exact .quiet (hafter.trans hstate) fun hfresh => hmessage (hstate.trans hfresh)
  | projects hevent hfresh hafter => exact .projects hevent (hstate.symm.trans hfresh) hafter
  | closes sends hopen hafter hsends => exact .closes sends (hstate ▸ hopen) hafter hsends

section

variable (session : MiceSession)

theorem outcome_close (event : Event) (reason : CloseReason) :
    Outcome session event (session.close reason) := by
  unfold close
  split
  · next hclosed =>
      refine .quiet rfl fun hfresh => ?_
      rw [hfresh] at hclosed
      cases hclosed
  · next hopen => exact .closes [] (Bool.eq_false_of_not_eq_true hopen) rfl (by simp)

theorem outcome_tick (elapsed : ℕ) :
    Outcome session (.tick elapsed) (session.tick elapsed) := by
  unfold tick
  split
  · exact .quiet rfl fun _ message h => nomatch h
  · dsimp only
    split
    · exact .quiet rfl fun _ message h => nomatch h
    · have hclose := outcome_close
        { session with sinceOpen := min (session.sinceOpen + elapsed) durationMax }
        (.tick elapsed) .establishmentTimeout
      exact hclose.of_state rfl

theorem outcome_onMessage (message : MiceMessage) :
    Outcome session (.message message) (session.onMessage message) := by
  unfold onMessage
  split
  · next hfresh => exact .projects rfl hfresh rfl
  · exact outcome_close _ _ _
  · split
    · exact outcome_close _ _ _
    · next hdtls =>
        split
        · refine .quiet rfl fun _ message' h => ?_
          cases h
          simpa [MiceMessage.plainRequest] using hdtls
        · exact outcome_close _ _ _
  · exact outcome_close _ _ _
  · exact outcome_close _ _ _
  · exact outcome_close _ _ _

theorem outcome_stop : Outcome session .stop session.stop := by
  unfold stop
  split
  · next name port id hstate =>
      have hopen : session.state.isClosed = false := by rw [hstate]; rfl
      have hclose : session.close .sourceStopped =
          ({ session with state := .closed .sourceStopped }, [.close .sourceStopped]) := by
        rw [close, hopen]
        rfl
      rw [hclose]
      exact .closes [.send _] hopen rfl (forall_mem_singleton.mpr rfl)
  · exact outcome_close _ _ _

theorem step_cases (event : Event) :
    Outcome session event (session.step event) := by
  cases event with
  | message message => exact outcome_onMessage session message
  | tick elapsed => exact outcome_tick session elapsed
  | stop => exact outcome_stop session
  | rtspEstablished => exact .quiet rfl fun _ message h => nomatch h

end

/-! ## What a run keeps -/

/-- What has been put out by the time the session is in its state. -/
structure Acts (events : List Event) (run : MiceSession × List MiceOutput) : Prop where
  projects : run.2.countP (·.isProject) ≤ 1
  unprojected : run.1.state = .fresh → run.2.countP (·.isProject) = 0
  requests : run.1.state = .fresh →
    ∀ message, .message message ∈ events → message.plainRequest
  closes : run.2.countP (·.isClose) = if run.1.state.isClosed then 1 else 0

theorem acts_new (friendlyName : String) : Acts [] (new friendlyName, []) where
  projects := Nat.zero_le _
  unprojected := fun _ => rfl
  requests := fun _ _ h => nomatch h
  closes := rfl

theorem countP_sends {sends : List MiceOutput} (h : ∀ output ∈ sends, output.isSend)
    {p : MiceOutput → Bool} (hp : ∀ message, p (.send message) = false) : sends.countP p = 0 := by
  rw [countP_eq_zero]
  intro output hmem
  have hsend := h output hmem
  cases output with
  | send message => simp [hp]
  | project port name | close reason => cases hsend

theorem Acts.act {run : MiceSession × List MiceOutput} (h : Acts events run) (event : Event) :
    Acts (events ++ [event]) (act run event) := by
  obtain ⟨session, out⟩ := run
  obtain ⟨result, hresult⟩ : ∃ result, result = session.step event := ⟨_, rfl⟩
  have hact : MiceSession.act (session, out) event = (result.1, out ++ result.2) := by
    rw [MiceSession.act, hresult]
  rw [hact]
  have hcases := step_cases session event
  rw [← hresult] at hcases
  cases hcases with
  | @quiet session' hstate hmessage =>
    refine ⟨?_, ?_, ?_, ?_⟩
    · simpa using h.projects
    · simpa [hstate] using h.unprojected
    · intro hfresh message hmem
      have hbefore : session.state = .fresh := hstate.symm.trans hfresh
      rcases mem_append.mp hmem with hold | hnew
      · exact h.requests hbefore message hold
      · exact hmessage hbefore message (mem_singleton.mp hnew).symm
    · simpa [hstate] using h.closes
  | @projects session' name port id hevent hstate hafter =>
    have hnone : out.countP (·.isProject) = 0 := h.unprojected hstate
    have hopen : out.countP (·.isClose) = 0 := by
      have hcloses := h.closes
      rw [hstate] at hcloses
      exact hcloses
    refine ⟨?_, ?_, ?_, ?_⟩
    · simp [countP_append, hnone]
    · intro hfresh
      cases hafter.symm.trans hfresh
    · intro hfresh
      cases hafter.symm.trans hfresh
    · simp [countP_append, hopen, hafter, MiceState.isClosed]
  | @closes session' reason sends hopen hafter hsends =>
    have hprojects : sends.countP (·.isProject) = 0 := countP_sends hsends fun _ => rfl
    have hcloses : sends.countP (·.isClose) = 0 := countP_sends hsends fun _ => rfl
    have hnone : out.countP (·.isClose) = 0 := by
      have hcount := h.closes
      rw [hopen] at hcount
      exact hcount
    refine ⟨?_, ?_, ?_, ?_⟩
    · simpa [countP_append, hprojects] using h.projects
    · intro hfresh
      cases hafter.symm.trans hfresh
    · intro hfresh
      cases hafter.symm.trans hfresh
    · simp [countP_append, hnone, hcloses, hafter, MiceState.isClosed]

theorem run_acts (friendlyName : String) (events : List Event) :
    Acts events (run friendlyName events) := by
  induction events using List.reverseRecOn with
  | nil => exact acts_new friendlyName
  | append_singleton events event ih =>
    rw [run_concat]
    exact ih.act event

/-! ## The timer -/

/-- While RTSP does not come up, an open session has counted every tick. -/
structure Timed (events : List Event) (session : MiceSession) : Prop where
  established : session.established = false
  counted : session.state.isClosed = false →
    session.sinceOpen = ticks events ∧ session.sinceOpen < establishmentTimeout

theorem ticks_concat (events : List Event) (event : Event) :
    ticks (events ++ [event]) = ticks events + ticks [event] := by
  rw [ticks, map_append, sum_append]
  rfl

theorem isClosed_close (session : MiceSession) (reason : CloseReason) :
    (session.close reason).1.state.isClosed = true := by
  unfold close
  split
  · next hclosed => exact hclosed
  · rfl

theorem close_established (session : MiceSession) (reason : CloseReason) :
    (session.close reason).1.established = session.established := by
  unfold close
  split <;> rfl

section

variable (h : Timed events session)
include h

/-- A message or a stop does not touch the timer of a session that it leaves
open. -/
theorem Timed.of_open {session' : MiceSession}
    (hestablished : session'.established = session.established)
    (hopen : session'.state.isClosed = false →
      session.state.isClosed = false ∧ session'.sinceOpen = session.sinceOpen)
    (hticks : ticks [event] = 0) : Timed (events ++ [event]) session' where
  established := hestablished.trans h.established
  counted := fun hstate => by
    obtain ⟨hbefore, hsince⟩ := hopen hstate
    rw [hsince, ticks_concat, hticks]
    exact h.counted hbefore

theorem Timed.close (reason : CloseReason)
    (hticks : ticks [event] = 0) : Timed (events ++ [event]) (session.close reason).1 := by
  refine h.of_open (close_established session reason) (fun hopen => ?_) hticks
  rw [isClosed_close] at hopen
  cases hopen

theorem Timed.onMessage (message : MiceMessage) :
    Timed (events ++ [.message message]) (session.onMessage message).1 := by
  unfold MiceSession.onMessage
  split
  · next hfresh => exact h.of_open rfl (fun _ => ⟨by rw [hfresh]; rfl, rfl⟩) rfl
  · exact h.close _ rfl
  · split
    · exact h.close _ rfl
    · split
      · exact h.of_open rfl (fun hopen => ⟨hopen, rfl⟩) rfl
      · exact h.close _ rfl
  · exact h.close _ rfl
  · exact h.close _ rfl
  · exact h.close _ rfl

theorem Timed.tick (elapsed : ℕ) :
    Timed (events ++ [.tick elapsed]) (session.tick elapsed).1 := by
  have hticks : ticks (events ++ [.tick elapsed]) = ticks events + elapsed := ticks_concat ..
  unfold MiceSession.tick
  split
  · next hclosed =>
      refine ⟨h.established, fun hopen => ?_⟩
      rw [h.established, hopen] at hclosed
      cases hclosed
  · next hstate =>
      dsimp only
      split
      · next hlt =>
          refine ⟨h.established, fun hopen => ?_⟩
          have hcounted := (h.counted hopen).1
          -- far below `durationMax`, the sum did not saturate
          have hmax : establishmentTimeout < durationMax := by decide
          rw [hticks, ← hcounted]
          dsimp only
          omega
      · refine ⟨(close_established _ _).trans h.established, fun hopen => ?_⟩
        rw [isClosed_close] at hopen
        cases hopen

theorem Timed.stop : Timed (events ++ [.stop]) session.stop.1 :=
  h.close .sourceStopped rfl

end

theorem run_timed (friendlyName : String) (hnever : .rtspEstablished ∉ events) :
    Timed events (run friendlyName events).1 := by
  induction events using List.reverseRecOn with
  | nil =>
    have hpositive : 0 < establishmentTimeout := by decide
    exact ⟨rfl, fun _ => ⟨rfl, hpositive⟩⟩
  | append_singleton events event ih =>
    have hbefore := ih fun hmem => hnever (mem_append_left _ hmem)
    rw [run_concat]
    cases event with
    | message message => exact hbefore.onMessage message
    | tick elapsed => exact hbefore.tick elapsed
    | stop => exact hbefore.stop
    | rtspEstablished => exact absurd (mem_append_right _ mem_cons_self) hnever

/-! ## Once closed -/

theorem step_of_closed (hclosed : session.state.isClosed) (event : Event) :
    (session.step event).1.state = session.state ∧ (session.step event).2 = [] := by
  have hcases := step_cases session event
  generalize session.step event = result at hcases
  cases hcases with
  | quiet hstate hmessage => exact ⟨hstate, rfl⟩
  | projects hevent hstate hafter =>
    rw [hstate] at hclosed
    cases hclosed
  | closes sends hopen hafter hsends =>
    rw [hopen] at hclosed
    cases hclosed

theorem foldl_act_of_closed {run : MiceSession × List MiceOutput}
    (hclosed : run.1.state.isClosed) (more : List Event) :
    (more.foldl MiceSession.act run).1.state = run.1.state ∧
      (more.foldl MiceSession.act run).2 = run.2 := by
  induction more generalizing run with
  | nil => exact ⟨rfl, rfl⟩
  | cons event more ih =>
    obtain ⟨hstate, hout⟩ := step_of_closed hclosed event
    have hnext : (MiceSession.act run event).1.state = run.1.state := hstate
    have hclosed' : (MiceSession.act run event).1.state.isClosed := by rwa [hnext]
    obtain ⟨hends, houts⟩ := ih hclosed'
    refine ⟨hends.trans hnext, houts.trans ?_⟩
    rw [MiceSession.act, hout, append_nil]

end MiceSession

/-! ## A channel acts once -/

open MiceSession MiceMessage

/-- No PIN without DTLS. -/
def MiceMessage.Legal : MiceMessage → Prop
  | sessionRequest _ _ security => security.Legal
  | _ => True

theorem eq_of_plainRequest {message : MiceMessage} (hplain : message.plainRequest)
    (hlegal : message.Legal) :
    ∃ name sourceId, message = sessionRequest name sourceId ⟨false, false⟩ := by
  cases message with
  | sessionRequest name sourceId security =>
    obtain ⟨dtls, pin⟩ := security
    have hdtls : dtls = false := by simpa [plainRequest] using hplain
    have hpin : pin = false := by
      cases pin with
      | false => rfl
      | true => exact absurd (hlegal rfl) (by simp [hdtls])
    exact ⟨name, sourceId, by rw [hdtls, hpin]⟩
  | sourceReady friendlyName rtspPort sourceId | stopProjection friendlyName sourceId
  | securityHandshake token | pinChallenge sourceId challenge | pinResponse sourceId reason =>
    cases hplain

/-- What is asked of a channel after `events`, and so after every part of a run.
-/
structure ActsOnce (friendlyName : String) (events : List Event) : Prop where
  projects : (run friendlyName events).2.countP (·.isProject) ≤ 1
  closes : (run friendlyName events).2.countP (·.isClose) =
    if (run friendlyName events).1.state.isClosed then 1 else 0
  silent : (run friendlyName events).1.state.isClosed → ∀ more,
    (run friendlyName (events ++ more)).1.state = (run friendlyName events).1.state ∧
      (run friendlyName (events ++ more)).2 = (run friendlyName events).2
  ready : ∀ name port sourceId,
    .project port name ∈
      ((run friendlyName events).1.step (.message (.sourceReady name port sourceId))).2 →
    ∀ message, .message message ∈ events →
      ∃ name sourceId, message = sessionRequest name sourceId ⟨false, false⟩
  times_out : .rtspEstablished ∉ events → establishmentTimeout ≤ ticks events →
    (run friendlyName events).1.state.isClosed

theorem fresh_of_projects {session : MiceSession} {event : Event} {port : UInt16}
    {name : Option String} (h : .project port name ∈ (session.step event).2) :
    session.state = .fresh := by
  have hcases := step_cases session event
  generalize session.step event = result at h hcases
  cases hcases with
  | quiet hstate hmessage => cases h
  | projects hevent hstate hafter => exact hstate
  | closes sends hopen hafter hsends =>
    rcases mem_append.mp h with hsend | hclose
    · cases hsends _ hsend
    · cases mem_singleton.mp hclose

theorem actsOnce_of_legal (friendlyName : String) (events : List Event)
    (hlegal : ∀ message, .message message ∈ events → message.Legal) :
    ActsOnce friendlyName events where
  projects := (run_acts friendlyName events).projects
  closes := (run_acts friendlyName events).closes
  silent := fun hclosed more => by
    rw [run, foldl_append]
    exact foldl_act_of_closed hclosed more
  ready := fun name port sourceId hproject message hmem => by
    have hplain := (run_acts friendlyName events).requests (fresh_of_projects hproject)
    exact eq_of_plainRequest (hplain message hmem) (hlegal message hmem)
  times_out := fun hnever hlong => by
    by_contra hopen
    obtain ⟨hcounted, hlt⟩ :=
      (run_timed friendlyName hnever).counted (Bool.eq_false_of_not_eq_true hopen)
    omega

def Holds (buf : Bytes) (command : UInt8) (tlvs : Tlvs) : Prop :=
  ∃ trailing, buf = frame command tlvs ++ trailing ∧ Framable tlvs ∧ ∀ tlv ∈ tlvs, Fits tlv

/-- **What is written is read back exactly if nothing in it is empty, its name
has no NUL and its options are legal; what is read is written and read again
exactly if its array has a name for that, and the room; and a channel acts once,
in every run without a request for a PIN and no DTLS.** -/
theorem control_channel_keeps (message : MiceMessage) (buf : Bytes) (friendlyName : String)
    (events : List Event) : (∀ bytes, encode message = .ok bytes → ∀ trailing,
      framedLen (bytes ++ trailing) = .ok bytes.length ∧
        (decode (bytes ++ trailing) = .ok message ↔ message.Full ∧ message.Plain)) ∧
      NoFault (decode buf) ∧
      (∀ message, decode buf = .ok message → (∃ command tlvs, Holds buf command tlvs) ∧
        ∀ command tlvs, Holds buf command tlvs →
          ((∃ bytes, encode message = .ok bytes ∧ decode bytes = .ok message) ↔
            Rewritable command tlvs)) ∧
      ((∀ message, .message message ∈ events → message.Legal) →
        ActsOnce friendlyName events) := by
  refine ⟨?_, noFault_decode buf, ?_, actsOnce_of_legal friendlyName events⟩
  · intro bytes hencode trailing
    exact ⟨framedLen_encode hencode trailing, decode_encode_iff hencode trailing⟩
  · intro message hdecode
    constructor
    · obtain ⟨command, tlvs, trailing, hbuf, hframable, hfits, -⟩ := decode_eq_ok.mp hdecode
      exact ⟨command, tlvs, trailing, hbuf, hframable, hfits⟩
    · rintro command tlvs ⟨trailing, rfl, hframable, hfits⟩
      rw [decode_frame hframable, decodeAll_flatMap hfits, ok_bind] at hdecode
      exact rewritten_iff hframable hfits hdecode

/-- A handshake without a token is written, and refused when it is read. -/
theorem empty_token_refused : encode (.securityHandshake []) = .ok [0, 7, 1, 3, 4, 0, 0] ∧
      decode [0, 7, 1, 3, 4, 0, 0] ≠ .ok (.securityHandshake []) := by
  have hencode : encode (.securityHandshake []) = .ok [0, 7, 1, 3, 4, 0, 0] := by decide
  refine ⟨hencode, fun hdecode => ?_⟩
  exact ((decode_encode_iff hencode []).mp hdecode).1 rfl

end Castaway.Mice
