import Castaway.FCast.Announcements

/-!
# Announcements over a whole run

A frame that announces a load is built where a session is told of an update,
where a version 3 sender is greeted, and where a version 4 sender is introduced
(`Builds`).  In a run that brings only small loads every one of them is within
the ceiling, and the ceiling makes no difference to what is announced
(`announcements_fit`).

The ceiling of what is taken is not that of what is sent, and the frames put
more around what was taken: `longUrl_unannounced`.
-/

namespace Castaway.FCast

open Castaway.Json (natural)
open List

/-- The receiver with the codecs that hold its frames to the ceiling. -/
def Shared.writing (shared : Shared) (codecs : Codecs) : Shared :=
  { shared with fits := Frame.encodes codecs }

theorem Shared.fits_writing (shared : Shared) (codecs : Codecs) (frame : Frame) :
    (shared.writing codecs).fits frame = frame.encodes codecs := rfl

def Shared.sparing (shared : Shared) (codecs : Codecs) : Shared :=
  { shared with fits := fun frame => frame.announces || frame.encodes codecs }

namespace Inner

variable {shared : Shared} {codecs : Codecs} {digits : ℕ} {s : Inner} {action : Action}
  {frame : Frame} {wallMs id now : ℕ} {op : Operation}

/-! ## What a step does to the player -/

def panelOperation (env : Env) : Panel → Option Operation
  | .play => some .resume
  | .pause => some .pause
  | .stop => some .stop
  | .seek target => some (.seek (clampSeek env target).1)
  | .volume level => some (.setVolume (.ofSingle level))
  | .mute _ => none
  | .next => some (.step true)
  | .previous => some (.step false)

/-- The operation that a step applies to the player, and at what time. -/
def performed (shared : Shared) (s : Inner) : Action → Option (ℕ × Operation)
  | .applyCommand env id =>
    (s.peers id).bind fun peer =>
      match peer.actor with
      | .carrying (.json command) => some (env.wallMs, operation shared env command)
      | .carrying (.v4 command) => (operationV4 shared env command).map fun op => (env.wallMs, op)
      | .reading | .closing => none
  | .issue env panel => (panelOperation env panel).map fun op => (env.wallMs, op)
  | .mediaEnded env ending => some (env.wallMs, .mediaEnded ending)
  | .mediaFailed env message => if message ∈ s.missing then some (env.wallMs, .stop) else none
  | _ => none

/-- The player after a step is the player before, or has had that operation
applied. -/
theorem player_step (s : Inner) (action : Action) :
    (s.step shared action).1.player =
      (performed shared s action).elim s.player fun done =>
        (s.player.apply shared.lib done.2).1 := by
  cases action with
  | connectJson | connectV4 now => rfl
  | jsonFrame id now wallMs frame => exact player_frames ..
  | v4Frame id now frame => exact player_v4Frame ..
  | applyCommand env id =>
    simp only [step, applyCommand, performed]
    cases hpeer : s.peers id with
    | none => rfl
    | some peer =>
      dsimp only [Option.bind_some]
      cases peer.actor with
      | reading | closing => rfl
      | carrying command =>
        cases command with
        | json command => exact player_settle ..
        | v4 command =>
          dsimp only [applyV4]
          cases hop : operationV4 shared env command with
          | some op =>
            obtain ⟨last, -, hspeed⟩ := withSpeed_eq command
            dsimp only [applyOperation]
            rw [hspeed]
            split <;> exact player_settle ..
          | none =>
            dsimp only
            split
            · rfl
            · exact player_deliverInfo ..
            · exact player_deliverData ..
            · exact player_answerMirroring ..
            · split
              · rfl
              · exact player_refuse ..
  | leave id => exact player_leave id
  | abandon id =>
    simp only [step, abandon]
    split <;> rfl
  | release id =>
    simp only [step, release]
    split <;> rfl
  | issue env panel =>
    cases panel with
    | mute muted => rfl
    | _ => exact player_settle ..
  | mediaEnded env ending => exact player_settle ..
  | verify url message =>
    simp only [step]
    split <;> rfl
  | mediaFailed env message =>
    by_cases hmissing : message ∈ s.missing
    · simp only [step, performed, if_pos hmissing]
      exact player_settle ..
    · simp only [step, performed, if_neg hmissing]
      rfl
  | progress env due =>
    simp only [step, progress]
    split <;> rfl
  | tick id now | written id | writerStopped id | reserve => rfl
  | register request url ask => exact player_register ..
  | timeOut request =>
    simp only [step]
    split
    · split
      · exact player_answer ..
      · rfl
    · rfl
  | forget request =>
    simp only [step]
    split
    · exact player_answer _ _
    · rfl

/-! ## The frames that a step builds -/

/-- The step builds this frame for a session. -/
inductive Builds (shared : Shared) (s : Inner) : Action → Frame → Prop
  | update {action : Action} {wallMs : ℕ} {op : Operation} {applied : Applied}
      {update : ReceiverUpdate} {session : PeerSession} {frame : Frame}
      (hop : performed shared s action = some (wallMs, op))
      (hok : (s.player.apply shared.lib op).2 = .ok applied) (hupdate : update ∈ applied.updates)
      (hframe : session.updateFrame wallMs update = some frame) : Builds shared s action frame
  | reply {id now wallMs : ℕ} {inbound : JsonInbound} {session after : Session}
      {reaction : Reaction JsonFrame SenderCommand} {frame : JsonFrame}
      (hframe : session.onFrame now
        ⟨wallMs, shared.identity, s.player.playData, s.player.volume⟩ inbound =
          .ok (after, reaction))
      (hreply : frame ∈ reaction.replies) :
      Builds shared s (.jsonFrame id now wallMs inbound) (.json frame)
  | introduced {now : ℕ} {frame : Frame} (h : frame ∈ s.introduction shared) :
      Builds shared s (.connectV4 now) frame

/-- An operation is asked for at a time of so many digits, and unless it is
refused it brings only small items. -/
def Modest (codecs : Codecs) (digits : ℕ) (shared : Shared) (s : Inner) (action : Action) : Prop :=
  ∀ wallMs op, performed shared s action = some (wallMs, op) →
    (natural wallMs).length ≤ digits ∧
    ∀ applied, (s.player.apply shared.lib op).2 = .ok applied →
      op.Small codecs shared.identity digits shared.lib

/-- A load that is small enough is loaded. -/
theorem fits_step (hwf : s.player.WellFormed) (hfits : s.player.Fits codecs shared.identity digits)
    (hmodest : Modest codecs digits shared s action) :
    (s.step shared action).1.player.Fits codecs shared.identity digits := by
  rw [player_step]
  cases hop : performed shared s action with
  | none => exact hfits
  | some done => exact hfits.apply hwf (hmodest done.1 done.2 hop).2

/-- What a version 3 sender is greeted with. -/
theorem encodes_initial (hnames : (Frame.json (.initial shared.identity none)).encodes codecs)
    (hfits : s.player.Fits codecs shared.identity digits) :
    (Frame.json (.initial shared.identity s.player.playData)).encodes codecs := by
  cases hloaded : s.player.loaded with
  | none =>
    rw [Player.playData, hloaded]
    exact hnames
  | some loaded =>
    rw [Player.playData, hloaded]
    exact (hfits loaded hloaded).load.encodes_initial

theorem encodes_of_builds (hwf : s.player.WellFormed)
    (hfits : s.player.Fits codecs shared.identity digits)
    (hnames : (Frame.json (.initial shared.identity none)).encodes codecs)
    (hmodest : Modest codecs digits shared s action)
    (h : Builds shared s action frame) (hannounces : frame.announces) : frame.encodes codecs := by
  cases h with
  | update hop hok hupdate hframe =>
    obtain ⟨htime, hsmall⟩ := hmodest _ _ hop
    rcases s.player.apply_cases shared.lib hwf _ with ⟨refusal, hrefused⟩ |
      ⟨player', applied', happly, -⟩
    · rw [hrefused] at hok
      cases hok
    · rw [happly] at hok
      obtain rfl := Except.ok.inj hok
      have hbrings := s.player.brings_apply shared.lib hwf _ happly
      have hop := hsmall _ (congrArg Prod.snd happly)
      exact (hbrings.updates _ hupdate).encodes (hbrings.fits hfits hop) hop htime hframe
        hannounces
  | reply hframe hreply =>
    rw [Session.onFrame_announces hframe hreply hannounces]
    exact encodes_initial hnames hfits
  | introduced hframe =>
    rcases mem_append.mp hframe with hfirst | hreplayed
    · rcases mem_cons.mp hfirst with rfl | hfirst
      · cases hannounces
      · cases mem_singleton.mp hfirst
        cases hannounces
    · cases hraw : s.player.v4SingleRaw with
      | none =>
        rw [hraw] at hreplayed
        cases hreplayed
      | some raw =>
        rw [hraw] at hreplayed
        rcases mem_cons.mp hreplayed with rfl | hstate
        · obtain ⟨loaded, hloaded, hkept⟩ := Option.bind_eq_some_iff.mp hraw
          exact ((hfits loaded hloaded).raw raw hkept).encodes
        · cases mem_singleton.mp hstate
          cases hannounces

/-! ## A ceiling that spares announcements -/

/-- Every announcement among these frames is within the ceiling. -/
def Sparing (codecs : Codecs) (frames : List Frame) : Prop :=
  ∀ frame ∈ frames, frame.announces → frame.encodes codecs

theorem sendFrames_sparing {frames : List Frame} (h : Sparing codecs frames) (peer : Peer) :
    peer.sendFrames (shared.writing codecs) frames =
      peer.sendFrames (shared.sparing codecs) frames := by
  unfold Peer.sendFrames
  induction frames generalizing peer with
  | nil => rfl
  | cons frame frames ih =>
    have hfits : (shared.writing codecs).fits frame = (shared.sparing codecs).fits frame := by
      change frame.encodes codecs = (frame.announces || frame.encodes codecs)
      cases hannounces : frame.announces with
      | false => rfl
      | true => exact h frame mem_cons_self hannounces
    have hfirst : peer.sendFrame (shared.writing codecs) frame =
        peer.sendFrame (shared.sparing codecs) frame := by
      rw [Peer.sendFrame, Peer.sendFrame, hfits]
    rw [foldl_cons, foldl_cons, hfirst]
    exact ih (fun other hother => h other (mem_cons_of_mem _ hother)) _

theorem sparing_single (h : frame.announces = false) : Sparing codecs [frame] := by
  intro other hother hannounces
  cases mem_singleton.mp hother
  rw [h] at hannounces
  cases hannounces

theorem sendTo_sparing (id : ℕ) (h : frame.announces = false) :
    s.sendTo (shared.writing codecs) id frame = s.sendTo (shared.sparing codecs) id frame :=
  congrArg (s.onPeer id) (funext (sendFrames_sparing (sparing_single h)))

theorem refusalFrame_sparing (wallMs : ℕ) (refusal : Refusal) (session : PeerSession) :
    Sparing codecs (refusalFrame wallMs refusal session).toList := by
  intro frame hframe hannounces
  have hsome := Option.mem_toList.mp hframe
  cases session with
  | json session => cases @announces_of_updateFrame (.json session) _ _ _ hsome hannounces
  | v4 session =>
    cases hsome
    cases hannounces

theorem refuse_sparing (wallMs : ℕ) (id : Option ℕ) (refusal : Refusal) :
    s.refuse (shared.writing codecs) wallMs id refusal =
      s.refuse (shared.sparing codecs) wallMs id refusal := by
  cases id with
  | none => rfl
  | some id =>
    exact congrArg (s.onPeer id)
      (funext fun peer => sendFrames_sparing (refusalFrame_sparing _ _ _) peer)

theorem broadcast_sparing {updates : List ReceiverUpdate}
    (h : ∀ update ∈ updates, ∀ (session : PeerSession) (frame : Frame),
      session.updateFrame wallMs update = some frame → frame.announces → frame.encodes codecs)
    (initiator : Option ℕ) : s.broadcast (shared.writing codecs) wallMs updates initiator =
      s.broadcast (shared.sparing codecs) wallMs updates initiator := by
  unfold broadcast
  congr 1
  funext id
  congr 1
  funext peer
  refine sendFrames_sparing (fun frame hframe hannounces => ?_) peer
  obtain ⟨update, hupdate, hsome⟩ := mem_filterMap.mp hframe
  exact h update (mem_filter.mp hupdate).1 _ frame hsome hannounces

/-- What an operation comes to, when the announcements of its updates are within
the ceiling. -/
theorem settle_sparing {wallMs : ℕ} {id : Option ℕ} {result : Player × Except Fault Applied}
    (h : ∀ applied, result.2 = .ok applied → ∀ update ∈ applied.updates,
      ∀ (session : PeerSession) (frame : Frame), session.updateFrame wallMs update = some frame →
        frame.announces → frame.encodes codecs) :
    s.settle (shared.writing codecs) wallMs id result =
      s.settle (shared.sparing codecs) wallMs id result := by
  obtain ⟨player, fault | applied⟩ := result
  · cases fault with
    | panic => rfl
    | refused refusal =>
      unfold settle
      dsimp only
      rw [refuse_sparing]
  · unfold settle
    dsimp only
    rw [broadcast_sparing (h applied rfl)]

def BuildsWithin (codecs : Codecs) (shared : Shared) (s : Inner) (action : Action) : Prop :=
  ∀ frame, Builds shared s action frame → frame.announces → frame.encodes codecs

section

variable (h : BuildsWithin codecs shared s action)
include h

theorem BuildsWithin.updates (hop : performed shared s action = some (wallMs, op)) :
    ∀ applied, (s.player.apply shared.lib op).2 = .ok applied → ∀ update ∈ applied.updates,
      ∀ (session : PeerSession) (frame : Frame), session.updateFrame wallMs update = some frame →
        frame.announces → frame.encodes codecs :=
  fun _ hok _ hupdate _ frame hframe => h frame (.update hop hok hupdate hframe)

/-- The updates of an operation and the speed that version 4 senders are told
beside them. -/
theorem BuildsWithin.withSpeed (hop : performed shared s action = some (wallMs, op))
    (command : V4Command) :
    ∀ applied, (withSpeed command (s.player.apply shared.lib op)).2 = .ok applied →
      ∀ update ∈ applied.updates, ∀ (session : PeerSession) (frame : Frame),
        session.updateFrame wallMs update = some frame → frame.announces →
          frame.encodes codecs := by
  obtain ⟨last, hlast, hspeed⟩ := withSpeed_eq command
  rw [hspeed]
  intro applied hok update hupdate session frame hframe hannounces
  cases hresult : (s.player.apply shared.lib op).2 with
  | error fault =>
    rw [Player.extended, hresult] at hok
    cases hok
  | ok before =>
    rw [Player.extended, hresult] at hok
    cases hok
    rcases mem_append.mp hupdate with hmem | hmem
    · exact h.updates hop before hresult update hmem session frame hframe hannounces
    · cases mem_singleton.mp (hlast hmem)
      cases announces_of_updateFrame hframe hannounces

theorem applyOperation_sparing {env : Env} (hop : performed shared s action = some (env.wallMs, op))
    {t : Inner}
    (hplayer : t.player = s.player) (id : ℕ) (command : V4Command) :
    t.applyOperation (shared.writing codecs) env id command op =
      t.applyOperation (shared.sparing codecs) env id command op := by
  have hsettle (t : Inner) : t.settle (shared.writing codecs) env.wallMs (some id)
        (Inner.withSpeed command (s.player.apply shared.lib op)) =
      t.settle (shared.sparing codecs) env.wallMs (some id)
        (Inner.withSpeed command (s.player.apply shared.lib op)) :=
    settle_sparing (h.withSpeed hop command)
  unfold applyOperation
  by_cases hseek : seekError env command
  · simp only [if_pos hseek, player_sendTo, hplayer]
    rw [sendTo_sparing id rfl]
    exact hsettle _
  · simp only [if_neg hseek, hplayer]
    exact hsettle _

end

theorem answerMirroring_sparing (env : Env) (id : ℕ) (sessionId : UInt16) :
    s.answerMirroring (shared.writing codecs) env id sessionId =
      s.answerMirroring (shared.sparing codecs) env id sessionId := by
  have hwriting : (shared.writing codecs).mirror = shared.mirror := rfl
  have hsparing : (shared.sparing codecs).mirror = shared.mirror := rfl
  unfold answerMirroring
  rw [hwriting, hsparing]
  cases shared.mirror with
  | false =>
    exact Prod.ext (@refuse_sparing shared codecs s env.wallMs (some id) noMirroring) rfl
  | true =>
    cases env.mirror with
    | ok answer => exact Prod.ext (sendTo_sparing id rfl) rfl
    | error e =>
      exact Prod.ext (@refuse_sparing shared codecs s env.wallMs (some id)
        ⟨"mirroring: " ++ e, .internal⟩) rfl

theorem companionHello_sparing (id : ℕ) :
    s.companionHello (shared.writing codecs) id = s.companionHello (shared.sparing codecs) id :=
  rfl

theorem applyV4_sparing (h : BuildsWithin codecs shared s action) {env : Env}
    {t : Inner} (hplayer : t.player = s.player) (id : ℕ) (info : Option DeviceInfo)
    {command : V4Command} (hop : ∀ op, operationV4 shared env command = some op →
      performed shared s action = some (env.wallMs, op)) :
    t.applyV4 (shared.writing codecs) env id info command =
      t.applyV4 (shared.sparing codecs) env id info command := by
  have hwriting : operationV4 (shared.writing codecs) env command =
      operationV4 shared env command := rfl
  have hsparing : operationV4 (shared.sparing codecs) env command =
      operationV4 shared env command := rfl
  unfold applyV4
  rw [hwriting, hsparing]
  cases hcommand : operationV4 shared env command with
  | some op =>
    dsimp only
    rw [applyOperation_sparing h (hop op hcommand) hplayer]
  | none =>
    cases command with
    | companionHello => exact Prod.ext (companionHello_sparing id) rfl
    | companionInfo request contentType size | companionData part => rfl
    | mirroringOffer sessionId sdp =>
      dsimp only
      rw [answerMirroring_sparing]
    | startMirroring sessionId =>
      dsimp only
      cases hmirror : shared.mirror with
      | true => simp [Shared.writing, Shared.sparing, hmirror]
      | false =>
        have hrefuse := @refuse_sparing shared codecs t env.wallMs (some id) noMirroring
        simpa [Shared.writing, Shared.sparing, hmirror] using hrefuse
    | _ => cases hcommand

theorem applyCommand_sparing {env : Env} (h : BuildsWithin codecs shared s (.applyCommand env id)) :
    s.applyCommand (shared.writing codecs) env id =
      s.applyCommand (shared.sparing codecs) env id := by
  unfold applyCommand
  cases hpeer : s.peers id with
  | none => rfl
  | some peer =>
    dsimp only
    cases hactor : peer.actor with
    | reading | closing => rfl
    | carrying command =>
      cases command with
      | json command =>
        have hop : performed shared s (.applyCommand env id) =
            some (env.wallMs, operation shared env command) := by
          simp [performed, hpeer, hactor]
        have hsettled := @settle_sparing shared codecs
          (s.setPeer id (some { peer with actor := .reading })) env.wallMs (some id) _
          (h.updates hop)
        exact congrArg (fun settled : Inner × Except Fault (List SessionEvent) =>
          (settled.1, emitted (withSource env (PeerSession.info peer.session)
            (isLoadJson command) settled.2))) hsettled
      | v4 command =>
        dsimp only
        refine applyV4_sparing h ?_ id _ fun op hop => ?_
        · rfl
        · simp [performed, hpeer, hactor, hop]

/-- An insertion makes a long copy longer. -/
theorem queueInsert_ne {view : View} (hlong : 256 ≤ view.items.length) (item : FlatQueueItem)
    (position : QueuePosition) : hear (.queueInsert item position) (some view) ≠ some view := by
  intro hsame
  have htarget : Player.target view.items.length true position ≤ view.items.length := by
    cases position with
    | index i => exact Nat.le_trans (Nat.le_of_lt i.toNat_lt) hlong
    | front => exact Nat.zero_le _
    | back => exact Nat.le_refl _
  have hitems : view.items.insertIdx (Player.target view.items.length true position) item =
      view.items := congrArg Cursor.items (Option.some.inj hsame)
  have hlength := congrArg List.length hitems
  rw [length_insertIdx_of_le_length htarget] at hlength
  omega

/-- What leaves every copy alone announces nothing. -/
theorem announces_of_idle {frame : V4Frame} (h : Idle (.v4 frame)) :
    (Frame.v4 frame).announces = false := by
  cases frame with
  | load source =>
    cases source with
    | single item => cases h (some ⟨[], 0⟩)
    | queue items startIndex autoplay => cases h none
  | queueInsert item position =>
    have hlong : 256 ≤ (List.replicate 256 item).length := by rw [length_replicate]
    exact absurd (h (some ⟨List.replicate 256 item, 0⟩)) (queueInsert_ne hlong item position)
  | _ => rfl

theorem act_sparing {peer : Peer} {session : PeerSession} {replies : List Frame}
    (h : Sparing codecs replies) (command : Option Command) :
    s.act (shared.writing codecs) id peer session replies command =
      s.act (shared.sparing codecs) id peer session replies command := by
  unfold act
  dsimp only
  rw [sendFrames_sparing h]

theorem jsonFrame_sparing {frame : JsonInbound}
    (h : BuildsWithin codecs shared s (.jsonFrame id now wallMs frame)) :
    s.jsonFrame (shared.writing codecs) id now wallMs frame =
      s.jsonFrame (shared.sparing codecs) id now wallMs frame := by
  unfold jsonFrame
  cases s.peers id with
  | none => rfl
  | some peer =>
    dsimp only
    cases peer.actor with
    | carrying command | closing => rfl
    | reading =>
      cases peer.session with
      | v4 session => rfl
      | json session =>
        dsimp only
        have hwriting : session.onFrame now ⟨wallMs, (shared.writing codecs).identity,
            s.player.playData, s.player.volume⟩ frame = session.onFrame now
            ⟨wallMs, shared.identity, s.player.playData, s.player.volume⟩ frame := rfl
        have hsparing : session.onFrame now ⟨wallMs, (shared.sparing codecs).identity,
            s.player.playData, s.player.volume⟩ frame = session.onFrame now
            ⟨wallMs, shared.identity, s.player.playData, s.player.volume⟩ frame := rfl
        rw [hwriting, hsparing]
        cases hframe : session.onFrame now
            ⟨wallMs, shared.identity, s.player.playData, s.player.volume⟩ frame with
        | error fault => rfl
        | ok result =>
          obtain ⟨session', reaction⟩ := result
          refine act_sparing (fun reply hreply hannounces => ?_) _
          obtain ⟨answer, hanswer, rfl⟩ := mem_map.mp hreply
          exact h _ (.reply hframe hanswer) hannounces

theorem v4Frame_sparing (id now : ℕ) (frame : RawFrame) :
    s.v4Frame (shared.writing codecs) id now frame =
      s.v4Frame (shared.sparing codecs) id now frame := by
  unfold v4Frame
  cases s.peers id with
  | none => rfl
  | some peer =>
    dsimp only
    cases peer.actor with
    | carrying command | closing => rfl
    | reading =>
      cases peer.session with
      | json session => rfl
      | v4 session =>
        dsimp only
        cases hframe : session.onFrame now frame with
        | error fault => rfl
        | ok result =>
          obtain ⟨session', reaction⟩ := result
          refine act_sparing (fun reply hreply hannounces => ?_) _
          obtain ⟨answer, hanswer, rfl⟩ := mem_map.mp hreply
          rw [announces_of_idle ((onFrame_ok hframe).1 answer hanswer)] at hannounces
          cases hannounces

theorem connectV4_sparing (h : BuildsWithin codecs shared s (.connectV4 now)) :
    s.connectV4 (shared.writing codecs) now = s.connectV4 (shared.sparing codecs) now := by
  have hintroduction : Sparing codecs (s.introduction shared) :=
    fun frame hframe => h frame (.introduced hframe)
  have hpeer := @sendFrames_sparing shared codecs _ hintroduction (.new (.v4 (.new now)))
  exact congrArg (fun peer : Peer =>
    { s.setPeer s.nextPeer (some peer) with nextPeer := s.nextPeer + 1 }) hpeer

theorem mediaFailed_sparing {t : Inner} (env : Env) (message : String)
    (h : ∀ applied, (t.player.apply shared.lib .stop).2 = .ok applied →
      ∀ update ∈ applied.updates, ∀ (session : PeerSession) (frame : Frame),
        session.updateFrame env.wallMs update = some frame → frame.announces →
          frame.encodes codecs) : t.mediaFailed (shared.writing codecs) env message =
      t.mediaFailed (shared.sparing codecs) env message := by
  have hwarned : t.broadcast (shared.writing codecs) env.wallMs
        [.error message .resourceNotFound] none =
      t.broadcast (shared.sparing codecs) env.wallMs [.error message .resourceNotFound] none := by
    refine broadcast_sparing (fun update hupdate session frame hframe hannounces => ?_) none
    cases mem_singleton.mp hupdate
    cases announces_of_updateFrame hframe hannounces
  unfold mediaFailed
  dsimp only
  rw [hwarned]
  exact settle_sparing h

theorem progress_sparing (env : Env) (due : ℕ → Bool) :
    s.progress (shared.writing codecs) env due = s.progress (shared.sparing codecs) env due := by
  unfold progress
  dsimp only
  split
  · rfl
  · congr 1
    funext id
    congr 1
    funext peer
    refine sendFrames_sparing (fun frame hframe hannounces => ?_) peer
    split at hframe
    · have hsome := Option.mem_toList.mp hframe
      unfold progressFrame at hsome
      split at hsome
      next session _ =>
        cases @announces_of_updateFrame (.json session) _ _ _ hsome hannounces
      · obtain ⟨time, -, rfl⟩ := Option.map_eq_some_iff.mp hsome
        cases hannounces
    · cases hframe

theorem announces_ping {session session' : PeerSession} {ping : Option Frame}
    (h : PeerSession.onTick now session = .ok (session', ping))
    (hframe : ping = some frame) : frame.announces = false := by
  subst hframe
  cases session with
  | json session =>
    rw [PeerSession.onTick, Session.onTick] at h
    split at h
    · cases h
    · cases h
    · split at h
      · cases h
      · cases h
      · cases h
        rfl
  | v4 session =>
    rw [PeerSession.onTick, SessionV4.onTick] at h
    split at h
    · cases h
    · cases h
    · cases h
      rfl

theorem tickPeer_sparing (id now : ℕ) :
    s.tickPeer (shared.writing codecs) id now = s.tickPeer (shared.sparing codecs) id now := by
  refine congrArg (s.onPeer id) (funext fun peer => ?_)
  unfold tickOne
  split
  · split
    next session ping htick =>
      refine sendFrames_sparing (fun frame hframe hannounces => ?_) _
      rw [announces_ping htick (Option.mem_toList.mp hframe)] at hannounces
      cases hannounces
    · rfl
  · rfl
  · rfl

/-- **Where every announcement that a step builds is within the ceiling, the
ceiling makes no difference to announcements.** -/
theorem step_sparing (h : BuildsWithin codecs shared s action) :
    s.step (shared.writing codecs) action = s.step (shared.sparing codecs) action := by
  cases action with
  | connectJson => rfl
  | connectV4 now => exact Prod.ext (connectV4_sparing h) rfl
  | jsonFrame id now wallMs frame => exact Prod.ext (jsonFrame_sparing h) rfl
  | v4Frame id now frame => exact Prod.ext (v4Frame_sparing id now frame) rfl
  | applyCommand env id => exact applyCommand_sparing h
  | leave id | abandon id | release id => rfl
  | issue env panel =>
    cases panel with
    | mute muted => rfl
    | _ => exact congrArg emitting (settle_sparing (h.updates rfl))
  | mediaEnded env ending => exact congrArg emitting (settle_sparing (h.updates rfl))
  | verify url message => rfl
  | mediaFailed env message =>
    by_cases hmissing : message ∈ s.missing
    · have hop : performed shared s (.mediaFailed env message) = some (env.wallMs, .stop) :=
        if_pos hmissing
      simp only [step, if_pos hmissing]
      exact congrArg emitting (mediaFailed_sparing env message (h.updates hop))
    · simp only [step, if_neg hmissing]
  | progress env due => exact Prod.ext (progress_sparing env due) rfl
  | tick id now => exact Prod.ext (tickPeer_sparing id now) rfl
  | written id | writerStopped id | reserve => rfl
  | register request url ask =>
    cases ask <;> rfl
  | timeOut request | forget request => rfl

/-! ## Runs -/

theorem sent_sendFrames {peer : Peer} (hfits : shared.fits frame = true)
    (hwriting : peer.writing = true) (hroom : peer.queued < outboundQueue) :
    (peer.sendFrames shared [frame]).sent = peer.sent ++ [frame] := by
  have htakes : (shared.fits frame && peer.writing && decide (peer.queued < outboundQueue)) =
      true := by
    rw [hfits, hwriting, decide_eq_true hroom]
    rfl
  rw [Peer.sendFrames, foldl_cons, foldl_nil, Peer.sendFrame, if_pos htakes]

/-- A version 3 sender is greeted with what is loaded. -/
theorem jsonFrame_hello {version : ℕ} {peer : Peer} {session : Session}
    (hpeer : s.peers id = some peer) (hactor : peer.actor = .reading)
    (hsession : peer.session = .json session) (hnew : session.version = none)
    (hversion : 3 ≤ version) : s.jsonFrame shared id now wallMs (.version (some version)) =
      s.act shared id peer
        (.json { session with lastRx := now, pingOutstanding := false, version := some .v3 })
        [.json (.initial shared.identity s.player.playData)] none := by
  obtain ⟨more, rfl⟩ := Nat.exists_eq_add_of_le' hversion
  have hframe : session.onFrame now ⟨wallMs, shared.identity, s.player.playData, s.player.volume⟩
        (.version (some (more + 3))) =
      .ok ({ session with lastRx := now, pingOutstanding := false, version := some .v3 },
        .reply (.initial shared.identity s.player.playData)) := by
    simp only [Session.onFrame, hnew]
    rfl
  rw [jsonFrame, hpeer]
  dsimp only
  rw [hactor, hsession]
  dsimp only
  rw [hframe]
  rfl

/-- The greeting is sent, if there is room and it fits. -/
theorem hello_answered {id now wallMs version : ℕ} {peer : Peer} {session : Session}
    (hpeer : s.peers id = some peer) (hactor : peer.actor = .reading)
    (hsession : peer.session = .json session) (hnew : session.version = none)
    (hversion : 3 ≤ version) (hwriting : peer.writing = true) (hroom : peer.queued < outboundQueue)
    (hfits : shared.fits (.json (.initial shared.identity s.player.playData)) = true) :
    (s.jsonFrame shared id now wallMs (.version (some version))).sentTo id =
      some (peer.sent ++ [.json (.initial shared.identity s.player.playData)]) := by
  rw [jsonFrame_hello hpeer hactor hsession hnew hversion, act, sentTo, setPeer_self,
    Option.map_some]
  exact congrArg some (sent_sendFrames hfits hwriting hroom)

/-- **In a run that brings only small loads every announcement that is built is
within the ceiling, so that none is lost to it and a version 3 sender is always
greeted.** -/
theorem announcements_fit (shared : Shared) (codecs : Codecs) (digits : ℕ)
    (hnames : (Frame.json (.initial shared.identity none)).encodes codecs)
    (actions : List Action)
    (h : Along (fun s action => (s.step (shared.writing codecs) action).1)
      (Modest codecs digits shared) actions .new) :
    Along (fun s action => (s.step (shared.writing codecs) action).1)
        (BuildsWithin codecs shared) actions .new ∧
      run (shared.writing codecs) actions = run (shared.sparing codecs) actions ∧
      ∀ id peer session, (run (shared.writing codecs) actions).peers id = some peer →
        peer.actor = .reading → peer.session = .json session → session.version = none →
        peer.writing = true → peer.queued < outboundQueue →
        ∀ now wallMs version, 3 ≤ version →
          ((run (shared.writing codecs) actions).jsonFrame (shared.writing codecs) id now wallMs
              (.version (some version))).sentTo id =
            some (peer.sent ++ [.json (.initial shared.identity
              (run (shared.writing codecs) actions).player.playData)]) := by
  have hstart : Player.new.WellFormed ∧ Player.new.Fits codecs shared.identity digits :=
    ⟨Player.wellFormed_new, fun _ hloaded => by cases hloaded⟩
  have hstep (s : Inner) (action : Action)
      (hs : s.player.WellFormed ∧ s.player.Fits codecs shared.identity digits)
      (hmodest : Modest codecs digits shared s action) :
      (s.step (shared.writing codecs) action).1.player.WellFormed ∧
        (s.step (shared.writing codecs) action).1.player.Fits codecs shared.identity digits :=
    ⟨wellFormed_step hs.1 action, @fits_step (shared.writing codecs) _ _ _ _ hs.1 hs.2 hmodest⟩
  have hwithin : Along (fun s action => (s.step (shared.writing codecs) action).1)
      (BuildsWithin codecs shared) actions .new :=
    h.imp_of_invariant (fun s => s.player.WellFormed ∧
      s.player.Fits codecs shared.identity digits) hstart fun s action hs hmodest =>
        ⟨fun _ hbuilt => encodes_of_builds hs.1 hs.2 hnames hmodest hbuilt,
          hstep s action hs hmodest⟩
  refine ⟨hwithin, ?_, ?_⟩
  · exact hwithin.foldl_congr fun s action hbuilds => congrArg Prod.fst (step_sparing hbuilds)
  · obtain ⟨-, hfits⟩ : (run (shared.writing codecs) actions).player.WellFormed ∧
        (run (shared.writing codecs) actions).player.Fits codecs shared.identity digits :=
      h.foldl (fun s => s.player.WellFormed ∧
        s.player.Fits codecs shared.identity digits) hstart hstep
    generalize run (shared.writing codecs) actions = reached at hfits ⊢
    intro id peer session hpeer hactor hsession hnew hwriting hroom now wallMs version hversion
    have hinitial : (shared.writing codecs).fits
        (.json (.initial shared.identity reached.player.playData)) = true := by
      rw [Shared.fits_writing]
      exact encodes_initial hnames hfits
    exact @hello_answered (shared.writing codecs) reached id now wallMs version peer session hpeer
      hactor hsession hnew hversion hwriting hroom hinitial

/-! ### Two loads -/

/-- Every double is `1.0`. -/
def exampleCodecs : Codecs := ⟨fun _ => utf8 "1.0", fun _ => []⟩

def filmAt (url : String) : PlayMessage :=
  ⟨"video/mp4", some url, none, none, none, none, none, none⟩

/-- A sender of version 1 plays what is at a URL. -/
def filmPlayed (url : String) : List Action :=
  [.connectJson, .jsonFrame 0 0 0 (.play (some (filmAt url))), .applyCommand exampleEnv 0]

/-- A film with a short URL is announced as without a ceiling. -/
theorem announcements_fit_film :
    run (exampleShared.writing exampleCodecs) (filmPlayed "http://h/v.mp4") =
      run (exampleShared.sparing exampleCodecs) (filmPlayed "http://h/v.mp4") := by
  have hsmall : Operation.Small exampleCodecs exampleShared.identity 1 exampleShared.lib
      (.load (filmAt "http://h/v.mp4")) := by
    refine ⟨?_, ?_, fun raw hraw => by cases hraw⟩
    · rintro _ ⟨⟩
      exact ⟨by decide, by decide⟩
    · intro item hitem
      cases mem_singleton.mp hitem
      change _ < _
      decide
  refine (announcements_fit exampleShared exampleCodecs 1 (by decide)
    (filmPlayed "http://h/v.mp4")
    ⟨fun _ _ hop => (by cases hop), fun _ _ hop => (by cases hop), ?_, trivial⟩).2.1
  intro wallMs op hop
  cases hop
  exact ⟨by decide, fun _ _ => hsmall⟩

/-- A URL of so many characters behind the host. -/
def longUrl (n : ℕ) : String := "http://h/" ++ String.ofList (List.replicate n 'a')

theorem length_escaped (n : ℕ) : ((List.replicate n 'a').flatMap Json.escape).length = n := by
  have hescape : (Json.escape 'a').length = 1 := by decide
  rw [length_flatMap, map_replicate, hescape, sum_replicate_nat, mul_one]

theorem length_longUrl (n : ℕ) : (Json.string (longUrl n)).length = n + 11 := by
  have hhost : ("http://h/".toList.flatMap Json.escape).length = 9 := by decide
  have hquote : (utf8 "\"").length = 1 := rfl
  have hname : (longUrl n).toList = "http://h/".toList ++ List.replicate n 'a' := by
    rw [longUrl, String.toList_append, @String.toList_ofList (List.replicate n _)]
  rw [Json.string, hname, flatMap_append, length_append, length_append,
    length_append, length_escaped, hhost, hquote]
  omega

theorem length_longFilm (n : ℕ) : ((filmAt (longUrl n)).text exampleCodecs).length = n + 43 := by
  have hcontainer : (Json.string "container").length = 11 := by decide
  have hmp4 : (Json.string "video/mp4").length = 11 := by decide
  have hurl : (Json.string "url").length = 5 := by decide
  rw [PlayMessage.text, Json.length_object (by simp [PlayMessage.members])]
  simp only [PlayMessage.members, filmAt, Json.given, Option.map_some, Option.map_none,
    Option.toList_some, Option.toList_none, append_nil, cons_append, nil_append,
    map_cons, map_nil, sum_cons, sum_nil, Json.memberLength, hcontainer, hmp4,
    hurl, length_longUrl]
  omega

/-- Playing a film builds a `PlayUpdate` for a version 3 sender. -/
theorem builds_filmPlayed (url : String) :
    Builds exampleShared (run (exampleShared.writing exampleCodecs) ((filmPlayed url).take 2))
      (.applyCommand exampleEnv 0) (.json (.playUpdate 0 (some (filmAt url)))) := by
  have hframe : (PeerSession.json { Session.new with version := some .v3 }).updateFrame 0
      (.playChanged (some (filmAt url))) = some (.json (.playUpdate 0 (some (filmAt url)))) := rfl
  exact .update rfl rfl (mem_cons_self ..) hframe

theorem sent_sendFrames_large {peer : Peer} (hfits : shared.fits frame = false) :
    (peer.sendFrames shared [frame]).sent = peer.sent := by
  rw [Peer.sendFrames, foldl_cons, foldl_nil, Peer.sendFrame, hfits]
  rfl

/-- A version 3 sender that joins later is not greeted when its greeting is too
large. -/
theorem sentTo_joined (url : String) (hlarge : ¬ (Frame.json
      (.initial exampleShared.identity (some (filmAt url)))).encodes exampleCodecs) :
    (run (exampleShared.writing exampleCodecs) (filmPlayed url ++
      [.connectJson, .jsonFrame 1 0 0 (.version (some 3))])).sentTo 1 = some [] := by
  have hpeer : (run (exampleShared.writing exampleCodecs) (filmPlayed url ++ [.connectJson])).peers
      1 = some (.new (.json .new)) := rfl
  have hplayData : (run (exampleShared.writing exampleCodecs)
      (filmPlayed url ++ [.connectJson])).player.playData = some (filmAt url) := rfl
  rw [append_cons, run_concat]
  generalize run (exampleShared.writing exampleCodecs) (filmPlayed url ++ [.connectJson]) = s
    at hpeer hplayData ⊢
  change (s.jsonFrame (exampleShared.writing exampleCodecs) 1 0 0 _).sentTo 1 = _
  rw [jsonFrame_hello hpeer rfl rfl rfl le_rfl, act, sentTo, setPeer_self, Option.map_some]
  refine congrArg some (sent_sendFrames_large ?_)
  rw [hplayData, Shared.fits_writing]
  exact Bool.eq_false_iff.mpr hlarge

/-- **A film whose text is within the ceiling is taken and played, and neither
its `PlayUpdate` nor the greeting of a version 3 sender that joins later is.**
-/
theorem longUrl_unannounced : 1 + ((filmAt (longUrl 31956)).text exampleCodecs).length = maxPacket ∧
      (run (exampleShared.writing exampleCodecs) (filmPlayed (longUrl 31956))).player.playData =
        some (filmAt (longUrl 31956)) ∧
      ¬ BuildsWithin exampleCodecs exampleShared
        (run (exampleShared.writing exampleCodecs) ((filmPlayed (longUrl 31956)).take 2))
        (.applyCommand exampleEnv 0) ∧
      (run (exampleShared.writing exampleCodecs) (filmPlayed (longUrl 31956) ++
        [.connectJson, .jsonFrame 1 0 0 (.version (some 3))])).sentTo 1 = some [] := by
  have htext : ((filmAt (longUrl 31956)).text exampleCodecs).length = 31999 := length_longFilm _
  generalize longUrl 31956 = url at htext ⊢
  refine ⟨by rw [htext]; rfl, rfl, fun hwithin => ?_, sentTo_joined url fun hgreeting => ?_⟩
  · have hupdate := Frame.encodes_iff.mp (hwithin _ (builds_filmPlayed url) rfl)
    have hlarge := @length_playUpdate exampleCodecs 0 (filmAt url)
    rw [Frame.body, hlarge, htext, maxPacket] at hupdate
    omega
  · have hinitial := Frame.encodes_iff.mp hgreeting
    rw [Frame.body, length_initial, htext, maxPacket] at hinitial
    omega

end Inner

end Castaway.FCast
