import Castaway.FCast.Headers
import Castaway.FCast.Receiver

/-!
# What a step of the receiver does to the player

Of the nineteen kinds of step most leave the player alone, and the others apply
one operation to it.  So the player of a receiver stays well-formed, as that of
any run of operations.

## Strategy

`Operated` says that a player is the old one, or the old one after an operation.
It is shown of each kind of step, from the innermost function out
(`operated_settle`, `operated_applyV4`, `operated_applyCommand`), and a property
of players that every operation keeps is then kept by a step (`wellFormed_step`)
and a run (`wellFormed_run`).
-/

namespace Castaway.FCast

variable {lib : Libraries} {player : Player}

/-- No operation makes a player ill-formed. -/
theorem Player.WellFormed.apply (h : player.WellFormed) (lib : Libraries) (op : Operation) :
    (player.apply lib op).1.WellFormed := by
  rcases Player.apply_cases lib h op with ⟨refusal, hrefused⟩ | ⟨player', applied, hok, heffect⟩
  · rw [hrefused]
    exact h
  · rw [hok]
    exact heffect.wellFormed

theorem Player.wellFormed_new : Player.new.WellFormed :=
  ⟨fun _ hsome => (by cases hsome), fun _ => rfl⟩

namespace Inner

variable {shared : Shared} {s : Inner}

/-! ## Sending -/

theorem sendFrames_session (shared : Shared) (peer : Peer) (frames : List Frame) :
    (peer.sendFrames shared frames).session = peer.session := by
  unfold Peer.sendFrames
  induction frames generalizing peer with
  | nil => rfl
  | cons frame frames ih =>
    rw [List.foldl_cons, ih]
    unfold Peer.sendFrame
    split <;> rfl

theorem sendFrames_actor (shared : Shared) (peer : Peer) (frames : List Frame) :
    (peer.sendFrames shared frames).actor = peer.actor := by
  unfold Peer.sendFrames
  induction frames generalizing peer with
  | nil => rfl
  | cons frame frames ih =>
    rw [List.foldl_cons, ih]
    unfold Peer.sendFrame
    split <;> rfl

/-- Every frame a connection has been sent, while it is one. -/
def sentTo (inner : Inner) (id : ℕ) : Option (List Frame) := (inner.peers id).map Peer.sent

/-- The version 4 command that the actor of a peer applies next. -/
def carried (inner : Inner) (id : ℕ) : Option V4Command :=
  (inner.peers id).bind fun peer =>
    match peer.actor with
    | .carrying (.v4 command) => some command
    | _ => none

/-- A command is carried by the peer that waits for its answer. -/
theorem carried_eq_some {id : ℕ} {command : V4Command} : s.carried id = some command ↔
      ∃ peer, s.peers id = some peer ∧ peer.actor = .carrying (.v4 command) := by
  rw [carried, Option.bind_eq_some_iff]
  refine exists_congr fun peer => and_congr_right fun _ => ?_
  rcases peer.actor with _ | ⟨command | command⟩ | _ <;> simp

/-! ## Items -/

theorem resolveItem_bare (host : Option LocalHost) (item : V4MediaItem) :
    resolveItem host item.bare = (resolveItem host item).bare := by
  have hurl : item.bare.sourceUrl = item.sourceUrl := rfl
  unfold resolveItem
  rw [hurl]
  split <;> rfl

/-! ## The player -/

/-- Settling an operation leaves the player that it returned. -/
theorem player_settle (wallMs : ℕ) (id : Option ℕ) (result : Player × Except Fault Applied) :
    (s.settle shared wallMs id result).1.player = result.1 := by
  obtain ⟨player, refusal | applied⟩ := result
  · cases refusal with
    | refused refusal => cases id <;> rfl
    | panic => rfl
  · rfl

/-- A setting of the speed is the only operation with more to tell. -/
theorem withSpeed_eq (command : V4Command) :
    ∃ last : List ReceiverUpdate, last ⊆ [.speedActual .one] ∧
      ∀ result, withSpeed command result = Player.extended [] last result := by
  cases command with
  | setSpeed speed => exact ⟨[.speedActual .one], List.Subset.refl _, fun result => rfl⟩
  | _ =>
    exact ⟨[], List.nil_subset _, fun result => (Player.extended_nil result).symm⟩

theorem player_sendTo (id : ℕ) (frame : Frame) : (s.sendTo shared id frame).player = s.player := rfl

theorem player_answer (request : UInt32) (answer : Answer) :
    (s.answer request answer).1.player = s.player := by
  unfold Inner.answer
  split <;> rfl

theorem player_refuse (wallMs : ℕ) (id : Option ℕ) (refusal : Refusal) :
    (s.refuse shared wallMs id refusal).player = s.player := by
  cases id <;> rfl

/-- The player is as before, or one operation has been applied to it. -/
def Operated (lib : Libraries) (player player' : Player) : Prop :=
  player' = player ∨ ∃ op, player' = (player.apply lib op).1

/-- An operation that is settled is one operation, or its player unchanged. -/
theorem operated_settle (wallMs : ℕ) (id : Option ℕ) (op : Operation) : Operated shared.lib s.player
      (s.settle shared wallMs id (s.player.apply shared.lib op)).1.player :=
  .inr ⟨op, player_settle ..⟩

theorem player_deliverInfo (request : UInt32) (contentType : String) (size : Option UInt64) :
    (s.deliverInfo request contentType size).1.player = s.player := by
  unfold deliverInfo
  split
  · exact player_answer _ _
  · rfl
  · rfl

theorem player_deliverData (part : ResourcePart) : (s.deliverData part).1.player = s.player := by
  unfold deliverData
  split
  · rfl
  · rfl
  · split
    · rfl
    · exact player_answer _ _
    · exact player_answer _ _
    · exact player_answer _ _

theorem player_answerMirroring (env : Env) (id : ℕ) (sessionId : UInt16) :
    (s.answerMirroring shared env id sessionId).1.player = s.player := by
  unfold answerMirroring
  split
  · split
    · rfl
    · exact player_refuse _ _ _
  · exact player_refuse _ _ _

/-- A version 4 command does one operation at most. -/
theorem operated_applyV4 (env : Env) (id : ℕ) (info : Option DeviceInfo) (command : V4Command) :
    Operated shared.lib s.player (s.applyV4 shared env id info command).1.player := by
  unfold applyV4
  split
  next op _ =>
    obtain ⟨last, -, hspeed⟩ := withSpeed_eq command
    refine .inr ⟨op, ?_⟩
    dsimp only [applyOperation]
    rw [hspeed]
    split <;> exact player_settle ..
  · split
    · exact .inl rfl
    · exact .inl (player_deliverInfo ..)
    · exact .inl (player_deliverData ..)
    · exact .inl (player_answerMirroring ..)
    · split
      · exact .inl rfl
      · exact .inl (player_refuse ..)

/-- So does any command that is taken up. -/
theorem operated_applyCommand (env : Env) (id : ℕ) :
    Operated shared.lib s.player (s.applyCommand shared env id).1.player := by
  unfold applyCommand
  split
  next peer _ =>
    split
    next command _ =>
      dsimp only
      cases command with
      | json command => exact @operated_settle shared (s.setPeer id _) env.wallMs (some id) _
      | v4 command => exact @operated_applyV4 shared (s.setPeer id _) env id _ command
    · exact .inl rfl
    · exact .inl rfl
  · exact .inl rfl

theorem player_frames (id now wallMs : ℕ) (frame : JsonInbound) :
    (s.jsonFrame shared id now wallMs frame).player = s.player := by
  unfold jsonFrame
  split
  · split
    · dsimp only
      split <;> rfl
    · rfl
  · rfl

theorem player_v4Frame (id now : ℕ) (frame : RawFrame) :
    (s.v4Frame shared id now frame).player = s.player := by
  unfold v4Frame
  split
  · split
    · split <;> rfl
    · rfl
  · rfl

theorem player_leave (id : ℕ) : (s.leave id).player = s.player := by
  unfold leave
  split
  · rfl
  · split <;> rfl

theorem player_register (request : UInt32) (url : CompanionUrl) (ask : Ask) :
    (s.register shared request url ask).1.player = s.player := by
  unfold register
  split
  · dsimp only
    split
    · rfl
    · exact player_answer _ _
  · rfl

/-- **One step** leaves the player alone, or applies one operation to it. -/
theorem operated_step (s : Inner) (action : Action) :
    Operated shared.lib s.player (s.step shared action).1.player := by
  cases action with
  | connectJson | connectV4 now => exact .inl rfl
  | jsonFrame id now wallMs frame => exact .inl (player_frames ..)
  | v4Frame id now frame => exact .inl (player_v4Frame ..)
  | applyCommand env id => exact operated_applyCommand env id
  | leave id => exact .inl (player_leave id)
  | abandon id =>
    refine .inl ?_
    simp only [step, abandon]
    split <;> rfl
  | release id =>
    refine .inl ?_
    simp only [step, release]
    split <;> rfl
  | issue env panel =>
    cases panel with
    | mute muted => exact .inl rfl
    | next => exact operated_settle env.wallMs none (.step true)
    | previous => exact operated_settle env.wallMs none (.step false)
    | play => exact operated_settle env.wallMs none .resume
    | pause => exact operated_settle env.wallMs none .pause
    | stop => exact operated_settle env.wallMs none .stop
    | seek target => exact operated_settle env.wallMs none (.seek _)
    | volume level => exact operated_settle env.wallMs none (.setVolume _)
  | mediaEnded env ending => exact operated_settle env.wallMs none (.mediaEnded ending)
  | verify url message =>
    simp only [step]
    split <;> exact .inl rfl
  | mediaFailed env message =>
    simp only [step]
    split
    · exact .inr ⟨.stop, player_settle ..⟩
    · exact .inl rfl
  | progress env due =>
    simp only [step, progress]
    split <;> exact .inl rfl
  | tick id now | written id | writerStopped id | reserve => exact .inl rfl
  | register request url ask => exact .inl (player_register ..)
  | timeOut request =>
    simp only [step]
    split
    · split
      · exact .inl (player_answer ..)
      · exact .inl rfl
    · exact .inl rfl
  | forget request =>
    simp only [step]
    split
    · exact .inl (player_answer _ _)
    · exact .inl rfl

/-! ## Connections -/

theorem nextPeer_settle (wallMs : ℕ) (id : Option ℕ) (result : Player × Except Fault Applied) :
    (s.settle shared wallMs id result).1.nextPeer = s.nextPeer := by
  obtain ⟨player, refusal | applied⟩ := result
  · cases refusal with
    | refused refusal => cases id <;> rfl
    | panic => rfl
  · rfl

theorem nextPeer_answer (request : UInt32) (answer : Answer) :
    (s.answer request answer).1.nextPeer = s.nextPeer := by
  unfold Inner.answer
  split <;> rfl

theorem nextPeer_refuse (wallMs : ℕ) (id : Option ℕ) (refusal : Refusal) :
    (s.refuse shared wallMs id refusal).nextPeer = s.nextPeer := by
  cases id <;> rfl

theorem nextPeer_applyV4 (env : Env) (id : ℕ) (info : Option DeviceInfo) (command : V4Command) :
    (s.applyV4 shared env id info command).1.nextPeer = s.nextPeer := by
  unfold applyV4
  split
  next op _ =>
    dsimp only [applyOperation]
    split <;> exact nextPeer_settle ..
  · split
    · rfl
    · unfold deliverInfo
      split
      · exact nextPeer_answer _ _
      · rfl
      · rfl
    · unfold deliverData
      split
      · rfl
      · rfl
      · split
        · rfl
        · exact nextPeer_answer _ _
        · exact nextPeer_answer _ _
        · exact nextPeer_answer _ _
    · dsimp only [answerMirroring]
      split
      · split
        · rfl
        · exact nextPeer_refuse ..
      · exact nextPeer_refuse ..
    · split
      · rfl
      · exact nextPeer_refuse ..

/-- Peers are numbered in the order they connect. -/
def Action.connects : Action → Bool
  | .connectJson | .connectV4 _ => true
  | _ => false

/-- Only a new connection takes a number, and it takes the next. -/
theorem nextPeer_step (s : Inner) (action : Action) :
    (s.step shared action).1.nextPeer = if action.connects then s.nextPeer + 1 else s.nextPeer := by
  cases action with
  | connectJson | connectV4 now => rfl
  | jsonFrame id now wallMs frame =>
    simp only [step, jsonFrame]
    split
    · split
      · split <;> rfl
      · rfl
    · rfl
  | v4Frame id now frame =>
    simp only [step, v4Frame]
    split
    · split
      · split <;> rfl
      · rfl
    · rfl
  | applyCommand env id =>
    simp only [step, applyCommand]
    split
    · split
      · split
        · exact nextPeer_settle ..
        · exact nextPeer_applyV4 ..
      · rfl
      · rfl
    · rfl
  | leave id =>
    simp only [step, leave]
    split
    · rfl
    · split <;> rfl
  | abandon id =>
    simp only [step, abandon]
    split <;> rfl
  | release id =>
    simp only [step, release]
    split <;> rfl
  | issue env panel => cases panel <;> first | exact nextPeer_settle .. | rfl
  | mediaEnded env ending => exact nextPeer_settle ..
  | verify url message =>
    simp only [step]
    split <;> rfl
  | mediaFailed env message =>
    simp only [step]
    split
    · exact nextPeer_settle ..
    · rfl
  | progress env due =>
    simp only [step, progress]
    split <;> rfl
  | tick id now | written id | writerStopped id | reserve => rfl
  | register request url ask =>
    simp only [step, register]
    split
    · split
      · rfl
      · exact nextPeer_answer _ _
    · rfl
  | timeOut request =>
    simp only [step]
    split
    · split
      · exact nextPeer_answer _ _
      · rfl
    · rfl
  | forget request =>
    simp only [step]
    split
    · exact nextPeer_answer _ _
    · rfl

/-! ## Runs -/

/-- A step keeps the player well-formed. -/
theorem wellFormed_step (hs : s.player.WellFormed) (action : Action) :
    (s.step shared action).1.player.WellFormed := by
  rcases @operated_step shared s action with hsame | ⟨op, hop⟩
  · rw [hsame]
    exact hs
  · rw [hop]
    exact hs.apply shared.lib op

theorem run_concat (shared : Shared) (actions : List Action) (action : Action) :
    run shared (actions ++ [action]) = ((run shared actions).step shared action).1 := by
  rw [run, List.foldl_concat]
  rfl

/-- The numbers of connections only grow. -/
theorem nextPeer_run_le (shared : Shared) (before after : List Action) :
    (run shared before).nextPeer ≤ (run shared (before ++ after)).nextPeer := by
  induction after using List.reverseRecOn with
  | nil => rw [List.append_nil]
  | append_singleton after action ih =>
    rw [← List.append_assoc, run_concat, nextPeer_step]
    split <;> omega

/-- The player of a receiver is well-formed after any steps. -/
theorem wellFormed_run (shared : Shared) (actions : List Action) :
    (run shared actions).player.WellFormed := by
  induction actions using List.reverseRecOn with
  | nil => exact Player.wellFormed_new
  | append_singleton actions action ih =>
    rw [run_concat]
    exact wellFormed_step ih action

/-! ## A receiver to try -/

/-- A receiver whose URLs are all `http`. -/
def exampleShared : Shared where
  identity := ⟨"Castaway", "castaway", "1"⟩
  mirror := false
  localHost := none
  lib := ⟨fun url => .ok ("http", url), fun _ => .error "no playlist"⟩
  display := fun _ => "2"
  fits := fun _ => true

def exampleEnv : Env where
  wallMs := 0
  progress := none
  resolved := id
  mirror := .error "no mirroring"
  address := "192.0.2.1"

end Inner

end Castaway.FCast
