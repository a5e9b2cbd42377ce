import Castaway.Bluetooth.Acl
import Castaway.Lib.Runs

/-!
# Links that come and go under the writer

A handle is the controller's, and it uses one again as soon as the link that had
it is gone.  So a run is told apart from the writer's own books: it knows what
was queued, which links have gone and come back since, and what the controller
holds.

## Strategy

`PumpStep` says once what the writer's task does.  From it come the parts that
hold whatever happens (`Sound`): credits, whole PDUs in the order of the queue,
and dead links without a credit.

**The headline result** is `writer_sound`.  One thing it needs is not assured by
the code: nothing that was queued for a link before it went down may be left
when its handle comes up again (`writer_leaks`), because the mark that the
writer goes by is gone then.
-/

namespace Castaway.Bluetooth

open Castaway.Hci (AclCredits AclPacket ConnectionHandle)
open Function List

namespace AclWriter

/-- What the writer's task does in a step. -/
inductive PumpStep (w t : AclWriter) (out : Option AclPacket) : Prop
  | idle (hstate : t = w) (hout : out = none)
  | took {job : Job} {jobs : List Job} (hpump : w.pump = .receiving) (hjobs : w.jobs = job :: jobs)
      (hstate : t = { w with jobs, pump := .checking job }) (hout : out = none)
  | dropped {job : Job} (hpump : w.pump = .checking job ∨
        ∃ progress, w.pump = .sending .claiming progress ∧ progress.job = job)
      (hdead : job.handle ∈ w.buffers.dead) (hstate : t = { w with pump := .receiving })
      (hout : out = none)
  | undeliverable {job : Job} {error : L2cap.L2capError} (hpump : w.pump = .checking job)
      (hencode : job.pdu.encode = .error error) (hstate : t = { w with pump := .receiving })
      (hout : out = none)
  | encoded {job : Job} {bytes : Bytes} (hpump : w.pump = .checking job)
      (hencode : job.pdu.encode = .ok bytes) (hstate : t = { w with pump := .sizing job bytes })
      (hout : out = none)
  | empty {job : Job} {bytes : Bytes} (hpump : w.pump = .sizing job bytes)
      (hchunks : chunks (max w.buffers.mtu 1) bytes = [])
      (hstate : t = { w with pump := .receiving }) (hout : out = none)
  | cut {job : Job} {bytes chunk : Bytes} {rest : List Bytes} (hpump : w.pump = .sizing job bytes)
      (hchunks : chunks (max w.buffers.mtu 1) bytes = chunk :: rest)
      (hstate : t = { w with pump := .sending .claiming ⟨job, .firstFlushable, chunk, rest⟩ })
      (hout : out = none)
  | claimed {progress : Progress} (hpump : w.pump = .sending .claiming progress)
      (halive : progress.job.handle ∉ w.buffers.dead)
      (hclaim : (w.buffers.credits.claim progress.job.handle).2 = true)
      (hstate : t = { w with
        buffers := { w.buffers with
          credits := (w.buffers.credits.claim progress.job.handle).1 }
        pump := .sending .writing progress })
      (hout : out = none)
  | paused {before after : Stage} {progress : Progress} {permit : Bool}
      (hpump : w.pump = .sending before progress) (hbefore : before ≠ .writing)
      (hafter : after ≠ .writing)
      (hstate : t = { w with permit, pump := .sending after progress }) (hout : out = none)
  | wrote {progress : Progress} (hpump : w.pump = .sending .writing progress)
      (hstate : t = { w with pump := following progress })
      (hout : out = some (fragment progress.job.handle progress.boundary progress.chunk))
  | failed {progress : Progress} (hpump : w.pump = .sending .writing progress)
      (hstate : t = { w with pump := .stopped progress.job }) (hout : out = none)

variable {w : AclWriter}

theorem pump_cases (w : AclWriter) (taken : Bool) :
    PumpStep w (w.advance taken).1 (w.advance taken).2 := by
  unfold advance
  split
  next hpump =>
    split
    · exact .idle rfl rfl
    next job jobs hjobs => exact .took hpump hjobs rfl rfl
  next job hpump =>
    split
    next hdead => exact .dropped (.inl hpump) hdead rfl rfl
    next =>
      split
      next error hencode => exact .undeliverable hpump hencode rfl rfl
      next bytes hencode => exact .encoded hpump hencode rfl rfl
  next job bytes hpump =>
    split
    next hchunks => exact .empty hpump hchunks rfl rfl
    next chunk rest hchunks => exact .cut hpump hchunks rfl rfl
  next progress hpump =>
    split
    next hdead => exact .dropped (.inr ⟨progress, hpump, rfl⟩) hdead rfl rfl
    next halive =>
      dsimp only
      split
      next hclaim => exact .claimed hpump halive hclaim rfl rfl
      next => exact .paused hpump (by decide) (by decide) rfl rfl
  next progress hpump =>
    split
    · exact .paused hpump (by decide) (by decide) rfl rfl
    · exact .paused hpump (by decide) (by decide) rfl rfl
  next => exact .idle rfl rfl
  next progress hpump =>
    dsimp only
    split
    · exact .wrote hpump rfl rfl
    · exact .failed hpump rfl rfl
  next => exact .idle rfl rfl

end AclWriter

/-! ## Runs -/

/-- What has become of the link that a PDU was queued for. -/
inductive Age where
  | fresh
  /-- It has gone down since. -/
  | downed
  /-- It has gone down since, and its handle has come up again. -/
  | revived
  deriving DecidableEq, Repr

def Age.goDown : Age → Age
  | .fresh => .downed
  | age => age

def Age.goUp : Age → Age
  | .downed => .revived
  | age => age

/-- A PDU that the writer is done with. -/
structure Piece where
  job : Job
  /-- What was written of it. -/
  packets : List AclPacket
  /-- Its link was down when the writer was done with it. -/
  down : Bool

/-- All of the PDU was written, or a part of it and then its link was down.  Of
a PDU that cannot be encoded nothing was. -/
def Piece.Fair (piece : Piece) : Prop :=
  match piece.job.pdu.encode with
  | .error _ => piece.packets = []
  | .ok bytes =>
    (∃ mtu, 0 < mtu ∧ piece.packets = fragments piece.job.handle mtu bytes) ∨
      piece.down = true ∧
        ∃ mtu, 0 < mtu ∧ piece.packets <+: fragments piece.job.handle mtu bytes

structure AclRun where
  writer : AclWriter
  /-- Every PDU that was queued, in order. -/
  sent : List Job
  /-- What has become of the link of each, by its place in that order. -/
  age : ℕ → Age
  /-- The links that went down last. -/
  down : ConnectionHandle → Bool
  /-- The PDUs that the writer is done with, in order. -/
  finished : List Piece
  /-- What is written of the one it has in hand. -/
  current : List AclPacket
  /-- Everything that the transport took. -/
  written : List AclPacket
  /-- What the controller holds, by link. -/
  held : ConnectionHandle → ℕ
  /-- The most buffers that the controller has said it has. -/
  peak : ℕ

namespace AclRun

def spawn : AclRun where
  writer := .spawn
  sent := []
  age := fun _ => .fresh
  down := fun _ => false
  finished := []
  current := []
  written := []
  held := fun _ => 0
  peak := AclWriter.initialCredits

def isFor (r : AclRun) (handle : ConnectionHandle) (number : ℕ) : Bool :=
  (r.sent[number]?.map Job.handle) == some handle

/-- What is queued: nothing, if the writer is gone. -/
def accepted (r : AclRun) : AclAction → List Job
  | .send job => match r.writer.pump with
    | .stopped _ => []
    | _ => [job]
  | _ => []

def ages (r : AclRun) (number : ℕ) : AclAction → Age
  | .linkDown handle => if r.isFor handle number then (r.age number).goDown else r.age number
  | .linkUp handle => if r.isFor handle number then (r.age number).goUp else r.age number
  | _ => r.age number

def downs (r : AclRun) : AclAction → ConnectionHandle → Bool
  | .linkDown handle => update r.down handle true
  | .linkUp handle => update r.down handle false
  | _ => r.down

/-- The PDU that the writer lets go of, when it has `next` in hand and has
written `out`. -/
def finishes (r : AclRun) (next : Option Job) (out : Option AclPacket) : Option Piece :=
  match r.writer.pump.job, next with
  | some job, none => some ⟨job, r.current ++ out.toList, r.down job.handle⟩
  | _, _ => none

/-- The controller holds what is written for a link that is up, until it reports
it or the link goes down. -/
def holds (r : AclRun) (out : Option AclPacket) : AclAction → ConnectionHandle → ℕ
  | .completed handle count => update r.held handle (r.held handle - count)
  | .linkDown handle => update r.held handle 0
  | _ => match out with
    | none => r.held
    | some packet =>
      if r.down packet.handle then r.held
      else update r.held packet.handle (r.held packet.handle + 1)

def step (r : AclRun) (action : AclAction) : AclRun :=
  let next := r.writer.step action
  let piece := r.finishes next.1.pump.job next.2
  { writer := next.1
    sent := r.sent ++ r.accepted action
    age := fun number => r.ages number action
    down := r.downs action
    finished := r.finished ++ piece.toList
    current := if piece.isSome then [] else r.current ++ next.2.toList
    written := r.written ++ next.2.toList
    held := r.holds next.2 action
    peak := max r.peak next.1.buffers.credits.capacity }

def run (actions : List AclAction) : AclRun := actions.foldl step spawn

variable {r : AclRun} {down : ConnectionHandle → Bool} {peak : ℕ} {progress : Progress}
  {action : AclAction}

/-! ## Credits -/

/-- The books of the buffers are balanced, within what the controller has, and
no dead link is in them. -/
structure Books (buffers : Buffers) (down : ConnectionHandle → Bool) (peak : ℕ) : Prop where
  balanced : buffers.credits.Balanced
  capacity : buffers.credits.capacity ≤ peak
  total : buffers.credits.total ≤ peak
  dead : ∀ handle, handle ∈ buffers.dead ↔ down handle = true
  clear : ∀ handle, down handle = true → buffers.credits.outstanding handle = 0

theorem Books.mono {buffers : Buffers}
    (h : Books buffers down peak) {other : ℕ} (hle : peak ≤ other) : Books buffers down other :=
  ⟨h.balanced, h.capacity.trans hle, h.total.trans hle, h.dead, h.clear⟩

theorem books_spawn : Books AclWriter.spawn.buffers spawn.down spawn.peak where
  balanced := AclCredits.balanced_new _
  capacity := le_rfl
  total := Nat.zero_le _
  dead := fun handle => by simp [AclWriter.spawn, spawn]
  clear := fun handle hdown => by cases hdown

theorem Books.completed {w : AclWriter}
    (h : Books w.buffers down peak) (handle : ConnectionHandle) (count : ℕ) :
    Books (w.completed handle count).buffers down peak where
  balanced := h.balanced.complete handle count
  capacity := h.capacity
  total := (Nat.sub_le _ _).trans h.total
  dead := h.dead
  clear := fun other hdown => by
    have hclear := h.clear other hdown
    simp only [AclWriter.completed, AclCredits.complete, update_apply]
    split
    next hsame => rw [← hsame, hclear, Nat.zero_sub]
    next => exact hclear

theorem Books.linkDown {w : AclWriter} (h : Books w.buffers down peak) (handle : ConnectionHandle) :
    Books (w.linkDown handle).buffers (update down handle true) peak where
  balanced := h.balanced.linkDown handle
  capacity := h.capacity
  total := (Nat.sub_le _ _).trans h.total
  dead := fun other => by
    simp only [AclWriter.linkDown, Finset.mem_insert, update_apply, h.dead]
    split <;> simp_all
  clear := fun other hdown => by
    rw [update_apply] at hdown
    simp only [AclWriter.linkDown, AclCredits.linkDown, update_apply]
    split
    · rfl
    next hother =>
      rw [if_neg hother] at hdown
      exact h.clear other hdown

theorem Books.linkUp {w : AclWriter} (h : Books w.buffers down peak) (handle : ConnectionHandle) :
    Books (w.linkUp handle).buffers (update down handle false) peak where
  balanced := h.balanced
  capacity := h.capacity
  total := h.total
  dead := fun other => by
    simp only [AclWriter.linkUp, Finset.mem_erase, update_apply, h.dead]
    split <;> simp_all
  clear := fun other hdown => by
    rw [update_apply] at hdown
    split at hdown
    · cases hdown
    · exact h.clear other hdown

theorem Books.claim {buffers : Buffers}
    (h : Books buffers down peak) {handle : ConnectionHandle} (halive : handle ∉ buffers.dead)
    (hclaim : (buffers.credits.claim handle).2 = true) :
    Books { buffers with credits := (buffers.credits.claim handle).1 } down peak := by
  have htotal := AclCredits.total_claim hclaim
  have hbalanced := h.balanced.claim handle
  unfold AclCredits.claim at *
  split at hclaim
  · cases hclaim
  next hnone =>
    rw [if_neg hnone] at *
    refine ⟨hbalanced, h.capacity, htotal.trans h.capacity, h.dead, fun other hdown => ?_⟩
    have hother : other ≠ handle := by
      rintro rfl
      exact halive ((h.dead other).mpr hdown)
    dsimp only
    rw [update_of_ne hother]
    exact h.clear other hdown

theorem buffers_send (w : AclWriter) (job : Job) : (w.send job).buffers = w.buffers := by
  unfold AclWriter.send
  split <;> rfl

theorem buffers_wake (w : AclWriter) : w.wake.buffers = w.buffers := by
  unfold AclWriter.wake
  split
  · rfl
  · split <;> rfl

/-- **One step** keeps the books. -/
theorem Books.step (h : Books r.writer.buffers r.down r.peak) (action : AclAction) :
    Books (r.step action).writer.buffers (r.step action).down (r.step action).peak := by
  have hmono := h.mono (Nat.le_max_left r.peak (r.writer.step action).1.buffers.credits.capacity)
  cases action with
  | send job =>
    simp only [AclRun.step, AclWriter.step, buffers_send] at hmono ⊢
    exact hmono
  | configure capacity mtu =>
    exact ⟨h.balanced, le_max_right _ _, hmono.total, h.dead, h.clear⟩
  | completed handle count => exact hmono.completed handle count
  | linkDown handle => exact hmono.linkDown handle
  | linkUp handle => exact hmono.linkUp handle
  | wake =>
    simp only [AclRun.step, AclWriter.step, buffers_wake] at hmono ⊢
    exact hmono
  | pump taken =>
    have hcases := AclWriter.pump_cases r.writer taken
    simp only [AclRun.step, AclWriter.step] at hmono ⊢
    generalize r.writer.advance taken = result at hcases hmono
    obtain ⟨t, out⟩ := result
    cases hcases with
    | claimed hpump halive hclaim hstate hout =>
      subst hstate
      exact hmono.claim halive hclaim
    | idle hstate hout | took hpump hjobs hstate hout | dropped hpump hdead hstate hout
    | undeliverable hpump hencode hstate hout | encoded hpump hencode hstate hout
    | empty hpump hchunks hstate hout | cut hpump hchunks hstate hout
    | paused hpump hbefore hafter hstate hout | wrote hpump hstate hout
    | failed hpump hstate hout => exact hstate ▸ hmono

/-! ## Whole PDUs -/

/-- What is written of the PDU in hand is where its fragments begin. -/
def Hand (current : List AclPacket) : Pump → Prop
  | .receiving | .checking _ => current = []
  | .sizing job bytes => current = [] ∧ job.pdu.encode = .ok bytes
  | .sending _ progress => ∃ mtu bytes, 0 < mtu ∧ progress.job.pdu.encode = .ok bytes ∧
      current ++ progress.remaining = fragments progress.job.handle mtu bytes
  | .stopped job => ∃ mtu bytes, 0 < mtu ∧ job.pdu.encode = .ok bytes ∧
      current <+: fragments job.handle mtu bytes

/-- Every PDU was written whole or let go of for a reason, in the order of the
queue. -/
structure Pieces (r : AclRun) : Prop where
  order : r.sent = r.finished.map Piece.job ++ r.writer.pump.job.toList ++ r.writer.jobs
  written : r.written = r.finished.flatMap Piece.packets ++ r.current
  fair : ∀ piece ∈ r.finished, piece.Fair
  hand : Hand r.current r.writer.pump

theorem pieces_spawn : Pieces spawn where
  order := rfl
  written := rfl
  fair := fun _ hpiece => absurd hpiece not_mem_nil
  hand := rfl

theorem fair_of_hand {current : List AclPacket} {stage : Stage}
    (h : Hand current (.sending stage progress)) : Piece.Fair ⟨progress.job, current, true⟩ := by
  obtain ⟨mtu, bytes, hmtu, hencode, hfragments⟩ := h
  simp only [Piece.Fair, hencode]
  exact .inr ⟨trivial, mtu, hmtu, hfragments ▸ prefix_append ..⟩

/-- Nothing is let go of while the same PDU is in hand. -/
theorem finishes_same {next : Option Job} (h : next = r.writer.pump.job)
    (out : Option AclPacket) : r.finishes next out = none := by
  unfold finishes
  rw [h]
  cases r.writer.pump.job <;> rfl

/-- The writer goes on with the PDU that it has in hand, or takes none up. -/
theorem Pieces.goOn (h : r.Pieces)
    (hnone : r.finishes (r.writer.step action).1.pump.job (r.writer.step action).2 = none)
    (horder : (r.writer.step action).1.pump.job.toList ++ (r.writer.step action).1.jobs =
      r.writer.pump.job.toList ++ r.writer.jobs ++ r.accepted action)
    (hhand : Hand (r.current ++ (r.writer.step action).2.toList)
      (r.writer.step action).1.pump) : (r.step action).Pieces := by
  refine ⟨?_, ?_, ?_, ?_⟩
  · simp only [AclRun.step, hnone, Option.toList_none, append_nil]
    rw [append_assoc, horder, h.order]
    simp only [append_assoc]
  · simp [AclRun.step, hnone, h.written]
  · simp only [AclRun.step, hnone, Option.toList_none, append_nil]
    exact h.fair
  · simpa [AclRun.step, hnone] using hhand

/-- The writer lets go of the PDU that it has in hand. -/
theorem Pieces.finish (h : r.Pieces) {job : Job}
    (hjob : r.writer.pump.job = some job) (hpump : (r.writer.step action).1.pump = .receiving)
    (hjobs : (r.writer.step action).1.jobs = r.writer.jobs) (haccepted : r.accepted action = [])
    (hfair : Piece.Fair
      ⟨job, r.current ++ (r.writer.step action).2.toList, r.down job.handle⟩) :
    (r.step action).Pieces := by
  have hafter : (r.writer.step action).1.pump.job = none := by
    rw [hpump]
    rfl
  have hpiece : r.finishes (r.writer.step action).1.pump.job (r.writer.step action).2 =
      some ⟨job, r.current ++ (r.writer.step action).2.toList, r.down job.handle⟩ := by
    unfold finishes
    rw [hjob, hafter]
  refine ⟨?_, ?_, ?_, ?_⟩
  · simp only [AclRun.step, hpiece]
    simp [haccepted, hjobs, hafter, h.order, hjob]
  · simp [AclRun.step, hpiece, h.written]
  · simp only [AclRun.step, hpiece]
    intro piece hmem
    rcases mem_append.mp hmem with hbefore | hlast
    · exact h.fair piece hbefore
    · rw [mem_singleton.mp hlast]
      exact hfair
  · simp only [AclRun.step, hpiece]
    rw [hpump]
    rfl

/-- What others do while the writer is where it is. -/
theorem Pieces.wait (h : r.Pieces) (hout : (r.writer.step action).2 = none)
    (hpump : (r.writer.step action).1.pump = r.writer.pump)
    (hjobs : (r.writer.step action).1.jobs = r.writer.jobs ++ r.accepted action) :
    (r.step action).Pieces := by
  refine h.goOn ?_ ?_ ?_
  · exact finishes_same (congrArg Pump.job hpump) _
  · rw [hpump, hjobs, append_assoc]
  · rw [hout, hpump, Option.toList_none, append_nil]
    exact h.hand

/-- The writer goes from one stage of a fragment to another. -/
theorem Pieces.advance (h : r.Pieces) {before after : Stage}
    (hout : (r.writer.step action).2 = none)
    (hbefore : r.writer.pump = .sending before progress)
    (hafter : (r.writer.step action).1.pump = .sending after progress)
    (hjobs : (r.writer.step action).1.jobs = r.writer.jobs)
    (haccepted : r.accepted action = []) : (r.step action).Pieces := by
  refine h.goOn ?_ ?_ ?_
  · simp only [finishes, hbefore, hafter, Pump.job]
  · rw [hbefore, hafter, hjobs, haccepted, append_nil]
    rfl
  · have hhand := h.hand
    rw [hbefore] at hhand
    rw [hafter, hout, Option.toList_none, append_nil]
    exact hhand

theorem jobs_wake (w : AclWriter) : w.wake.jobs = w.jobs := by
  unfold AclWriter.wake
  split
  · rfl
  · split <;> rfl

theorem wake_cases (w : AclWriter) : w.wake.pump = w.pump ∨
    ∃ progress, w.pump = .sending .parked progress ∧
      w.wake.pump = .sending .claiming progress := by
  unfold AclWriter.wake
  split
  · exact .inl rfl
  · split
    next progress hparked => exact .inr ⟨progress, hparked, rfl⟩
    next => exact .inl rfl

/-- A PDU of which nothing was written, since its link is down. -/
theorem fair_of_dropped (job : Job) : Piece.Fair ⟨job, [], true⟩ := by
  unfold Piece.Fair
  split
  · rfl
  · exact .inr ⟨rfl, 1, Nat.one_pos, nil_prefix⟩

theorem fair_of_whole {current : List AclPacket} {down : Bool}
    (h : Hand current (.sending .writing progress)) (hrest : progress.rest = []) :
    Piece.Fair ⟨progress.job,
      current ++ [fragment progress.job.handle progress.boundary progress.chunk], down⟩ := by
  obtain ⟨mtu, bytes, hmtu, hencode, hfragments⟩ := h
  rw [Progress.remaining, hrest] at hfragments
  simp only [Piece.Fair, hencode]
  exact .inl ⟨mtu, hmtu, hfragments⟩

/-! ### Each step of the task -/

section

variable {taken : Bool} {job : Job} {bytes : Bytes} {progress : Progress}

section

variable (h : r.Pieces)
include h

/-- The next PDU of the queue is in the hand. -/
theorem Pieces.took {jobs : List Job} (hpump : r.writer.pump = .receiving)
    (hjobs : r.writer.jobs = job :: jobs)
    (hstep : r.writer.step (.pump taken) = ({ r.writer with jobs, pump := .checking job }, none)) :
    (r.step (.pump taken)).Pieces := by
  have hhand := h.hand
  rw [hpump] at hhand
  refine h.goOn ?_ ?_ ?_
  · simp only [finishes, hpump, Pump.job]
  · simp [hstep, hpump, hjobs, Pump.job, accepted]
  · simpa [hstep, Hand] using hhand

/-- What was written of a PDU whose link is down is a part of it. -/
theorem Pieces.dropped (hpump : r.writer.pump = .checking job ∨
      ∃ progress, r.writer.pump = .sending .claiming progress ∧ progress.job = job)
    (hdown : r.down job.handle = true)
    (hstep : r.writer.step (.pump taken) = ({ r.writer with pump := .receiving }, none)) :
    (r.step (.pump taken)).Pieces := by
  have hhand := h.hand
  have hjob : r.writer.pump.job = some job := by
    rcases hpump with hpump | ⟨progress, hpump, rfl⟩
    · rw [hpump]
      rfl
    · rw [hpump]
      rfl
  refine h.finish hjob ?_ ?_ rfl ?_
  · rw [hstep]
  · rw [hstep]
  · rw [hstep, hdown, Option.toList_none, append_nil]
    rcases hpump with hpump | ⟨progress, hpump, rfl⟩
    · rw [hpump] at hhand
      rw [show r.current = [] from hhand]
      exact fair_of_dropped job
    · rw [hpump] at hhand
      exact fair_of_hand hhand

theorem Pieces.undeliverable {error : L2cap.L2capError}
    (hpump : r.writer.pump = .checking job) (hencode : job.pdu.encode = .error error)
    (hstep : r.writer.step (.pump taken) = ({ r.writer with pump := .receiving }, none)) :
    (r.step (.pump taken)).Pieces := by
  have hhand := h.hand
  rw [hpump] at hhand
  refine h.finish (by rw [hpump]; rfl) ?_ ?_ rfl ?_
  · rw [hstep]
  · rw [hstep]
  · rw [hstep, Option.toList_none, append_nil, show r.current = [] from hhand]
    simp only [Piece.Fair, hencode]

theorem Pieces.encoded
    (hpump : r.writer.pump = .checking job) (hencode : job.pdu.encode = .ok bytes)
    (hstep : r.writer.step (.pump taken) = ({ r.writer with pump := .sizing job bytes }, none)) :
    (r.step (.pump taken)).Pieces := by
  have hhand := h.hand
  rw [hpump] at hhand
  refine h.goOn ?_ ?_ ?_
  · simp only [finishes, hpump, hstep, Pump.job]
  · simp [hstep, hpump, Pump.job, accepted]
  · rw [hstep, Option.toList_none, append_nil]
    exact ⟨hhand, hencode⟩

/-- A PDU without bytes is done at once. -/
theorem Pieces.empty (hpump : r.writer.pump = .sizing job bytes)
    (hchunks : chunks (max r.writer.buffers.mtu 1) bytes = [])
    (hstep : r.writer.step (.pump taken) = ({ r.writer with pump := .receiving }, none)) :
    (r.step (.pump taken)).Pieces := by
  have hhand := h.hand
  rw [hpump] at hhand
  obtain ⟨hcurrent, hencode⟩ := hhand
  refine h.finish (by rw [hpump]; rfl) ?_ ?_ rfl ?_
  · rw [hstep]
  · rw [hstep]
  · rw [hstep, Option.toList_none, append_nil, hcurrent]
    simp only [Piece.Fair, hencode]
    refine .inl ⟨max r.writer.buffers.mtu 1, lt_max_of_lt_right Nat.one_pos, ?_⟩
    simp only [fragments, hchunks]

/-- The fragments are cut before the first of them is written. -/
theorem Pieces.cut {chunk : Bytes} {rest : List Bytes} (hpump : r.writer.pump = .sizing job bytes)
    (hchunks : chunks (max r.writer.buffers.mtu 1) bytes = chunk :: rest)
    (hstep : r.writer.step (.pump taken) =
      ({ r.writer with pump := .sending .claiming ⟨job, .firstFlushable, chunk, rest⟩ }, none)) :
    (r.step (.pump taken)).Pieces := by
  have hhand := h.hand
  rw [hpump] at hhand
  obtain ⟨hcurrent, hencode⟩ := hhand
  refine h.goOn ?_ ?_ ?_
  · simp only [finishes, hpump, hstep, Pump.job]
  · simp [hstep, hpump, Pump.job, accepted]
  · rw [hstep, Option.toList_none, append_nil, hcurrent]
    refine ⟨max r.writer.buffers.mtu 1, bytes, lt_max_of_lt_right Nat.one_pos, hencode, ?_⟩
    simp only [fragments, hchunks, nil_append, Progress.remaining]

end

/-- The fragment is written, and with the last of them the PDU is whole. -/
theorem Pieces.wrote (h : r.Pieces) (hpump : r.writer.pump = .sending .writing progress)
    (hstep : r.writer.step (.pump taken) =
      ({ r.writer with pump := AclWriter.following progress },
        some (fragment progress.job.handle progress.boundary progress.chunk))) :
    (r.step (.pump taken)).Pieces := by
  have hhand := h.hand
  rw [hpump] at hhand
  cases hrest : progress.rest with
  | nil =>
    refine h.finish (by rw [hpump]; rfl) ?_ ?_ rfl ?_
    · simp only [hstep, AclWriter.following, hrest]
    · rw [hstep]
    · rw [hstep]
      exact fair_of_whole hhand hrest
  | cons chunk rest =>
    refine h.goOn ?_ ?_ ?_
    · simp only [finishes, hpump, hstep, AclWriter.following, hrest, Pump.job]
    · simp [hstep, hpump, AclWriter.following, hrest, Pump.job, accepted]
    · obtain ⟨mtu, bytes, hmtu, hencode, hfragments⟩ := hhand
      simp only [hstep, AclWriter.following, hrest]
      refine ⟨mtu, bytes, hmtu, hencode, ?_⟩
      rw [← hfragments, Progress.remaining, Progress.remaining, hrest]
      exact append_assoc ..

/-- The transport has failed, and a part of the PDU was written. -/
theorem Pieces.failed (h : r.Pieces) (hpump : r.writer.pump = .sending .writing progress)
    (hstep : r.writer.step (.pump taken) =
      ({ r.writer with pump := .stopped progress.job }, none)) :
    (r.step (.pump taken)).Pieces := by
  have hhand := h.hand
  rw [hpump] at hhand
  refine h.goOn ?_ ?_ ?_
  · simp only [finishes, hpump, hstep, Pump.job]
  · simp [hstep, hpump, Pump.job, accepted]
  · obtain ⟨mtu, bytes, hmtu, hencode, hfragments⟩ := hhand
    rw [hstep, Option.toList_none, append_nil]
    exact ⟨mtu, bytes, hmtu, hencode, hfragments ▸ prefix_append ..⟩

end

/-- **One step** leaves whole PDUs, in the order of the queue. -/
theorem Pieces.step (h : r.Pieces) (hbooks : Books r.writer.buffers r.down r.peak)
    (action : AclAction) : (r.step action).Pieces := by
  cases action with
  | configure capacity mtu | completed handle count | linkDown handle | linkUp handle =>
    exact h.wait rfl rfl (append_nil _).symm
  | send job =>
    cases hpump : r.writer.pump with
    | stopped last =>
      refine h.wait rfl ?_ ?_
      · simp only [AclWriter.step, AclWriter.send, hpump]
      · simp only [AclWriter.step, AclWriter.send, accepted, hpump, append_nil]
    | receiving | checking _ | sizing _ _ | sending _ _ =>
      refine h.wait rfl ?_ ?_
      · simp only [AclWriter.step, AclWriter.send, hpump]
      · simp only [AclWriter.step, AclWriter.send, accepted, hpump]
  | wake =>
    rcases wake_cases r.writer with hpump | ⟨progress, hbefore, hafter⟩
    · exact h.wait rfl hpump ((jobs_wake r.writer).trans (append_nil _).symm)
    · exact h.advance rfl hbefore hafter (jobs_wake r.writer) rfl
  | pump taken =>
    have hcases := AclWriter.pump_cases r.writer taken
    generalize hresult : r.writer.advance taken = result at hcases
    obtain ⟨t, out⟩ := result
    have hstep : r.writer.step (.pump taken) = (t, out) := hresult
    cases hcases with
    | idle hstate hout =>
      subst hstate hout
      refine h.wait ?_ ?_ ?_
      · rw [hstep]
      · rw [hstep]
      · rw [hstep]
        exact (append_nil _).symm
    | took hpump hjobs hstate hout =>
      subst hstate hout
      exact h.took hpump hjobs hstep
    | dropped hpump hdead hstate hout =>
      subst hstate hout
      exact h.dropped hpump ((hbooks.dead _).mp hdead) hstep
    | undeliverable hpump hencode hstate hout =>
      subst hstate hout
      exact h.undeliverable hpump hencode hstep
    | encoded hpump hencode hstate hout =>
      subst hstate hout
      exact h.encoded hpump hencode hstep
    | empty hpump hchunks hstate hout =>
      subst hstate hout
      exact h.empty hpump hchunks hstep
    | cut hpump hchunks hstate hout =>
      subst hstate hout
      exact h.cut hpump hchunks hstep
    | claimed hpump halive hclaim hstate hout | paused hpump hbefore hafter hstate hout =>
      subst hstate hout
      refine h.advance ?_ hpump (congrArg (fun result => result.1.pump) hstep) ?_ rfl
      · rw [hstep]
      · rw [hstep]
    | wrote hpump hstate hout =>
      subst hstate hout
      exact h.wrote hpump hstep
    | failed hpump hstate hout =>
      subst hstate hout
      exact h.failed hpump hstep

/-! ## Handles that are used again -/

/-- A handle comes up when nothing is left that was queued for it before it went
down. -/
def Proper (r : AclRun) (action : AclAction) : Prop :=
  ∀ handle, action = .linkUp handle →
    ∀ number, r.finished.length ≤ number → r.isFor handle number = true → r.age number ≠ .downed

/-- No fragment is written of a PDU whose link has gone down and come up again
since it was queued. -/
def Severed (r : AclRun) (action : AclAction) : Prop :=
  (r.writer.step action).2.isSome = true → r.age r.finished.length ≠ .revived

/-- The controller reports no more fragments than it holds. -/
def Honest (r : AclRun) (action : AclAction) : Prop :=
  ∀ handle count, action = .completed handle count → count ≤ r.held handle

/-- Of the PDUs that are left, none is for a link that has come up again, and
one that has a credit for a dead link is for a link that has gone down. -/
structure Aged (r : AclRun) : Prop where
  kept : ∀ number, r.finished.length ≤ number → r.age number ≠ .revived
  writing : ∀ progress, r.writer.pump = .sending .writing progress →
    r.down progress.job.handle = true → r.age r.finished.length = .downed

theorem aged_spawn : Aged spawn where
  kept := fun _ _ h => by cases h
  writing := fun _ _ h => by cases h

theorem Age.goDown_ne {age : Age} (h : age ≠ .revived) : age.goDown = .downed := by
  cases age with
  | fresh | downed => rfl
  | revived => exact absurd rfl h

theorem Age.goUp_ne {age : Age} (h : age ≠ .revived) (hdowned : age ≠ .downed) :
    age.goUp ≠ .revived := by
  cases age with
  | fresh => exact h
  | downed => exact absurd rfl hdowned
  | revived => exact absurd rfl h

/-- The PDU in hand is the next one that was queued. -/
theorem Pieces.isFor (h : r.Pieces) {job : Job} (hjob : r.writer.pump.job = some job)
    (handle : ConnectionHandle) :
    r.isFor handle r.finished.length = true ↔ job.handle = handle := by
  have hnext : r.sent[r.finished.length]? = some job := by
    rw [h.order, hjob]
    simp
  rw [AclRun.isFor, hnext, Option.map_some, beq_iff_eq, Option.some_inj]

/-- An action of others leaves the writer with the PDU that it has in hand. -/
theorem finished_other (hother : ∀ taken, action ≠ .pump taken) :
    (r.step action).finished = r.finished := by
  have hjob : (r.writer.step action).1.pump.job = r.writer.pump.job := by
    cases action with
    | pump taken => exact absurd rfl (hother taken)
    | send job =>
      simp only [AclWriter.step, AclWriter.send]
      split <;> rfl
    | wake =>
      rcases wake_cases r.writer with hpump | ⟨progress, hbefore, hafter⟩
      · exact congrArg Pump.job hpump
      · simp only [AclWriter.step, hbefore, hafter, Pump.job]
    | configure _ _ | completed _ _ | linkDown _ | linkUp _ => rfl
  simp only [AclRun.step, finishes_same hjob, Option.toList_none, append_nil]

theorem length_finished (r : AclRun) (action : AclAction) :
    r.finished.length ≤ (r.step action).finished.length := by
  rw [AclRun.step, length_append]
  exact Nat.le_add_right ..

/-- A dead link is given no credit, so what has one was given it before. -/
theorem Aged.writing_pump (h : r.Aged) (hbooks : Books r.writer.buffers r.down r.peak)
    {taken : Bool} {progress : Progress}
    (hwriting : (r.step (.pump taken)).writer.pump = .sending .writing progress)
    (hdown : (r.step (.pump taken)).down progress.job.handle = true) :
    (r.step (.pump taken)).age (r.step (.pump taken)).finished.length = .downed := by
  have hcases := AclWriter.pump_cases r.writer taken
  generalize hresult : r.writer.advance taken = result at hcases
  obtain ⟨t, out⟩ := result
  have hstep : r.writer.step (.pump taken) = (t, out) := hresult
  have hafter : t.pump = .sending .writing progress := by
    rw [← hwriting]
    exact (congrArg (fun result => result.1.pump) hstep).symm
  cases hcases with
  | idle hstate hout =>
    subst hstate
    have hsame : (r.step (.pump taken)).finished = r.finished := by
      simp only [AclRun.step, hstep, finishes_same rfl, Option.toList_none, append_nil]
    rw [hsame]
    exact h.writing progress hafter hdown
  | @claimed other hpump halive hclaim hstate hout =>
    subst hstate
    cases hafter
    exact absurd ((hbooks.dead _).mpr hdown) halive
  | paused hpump hbefore hnot hstate hout =>
    subst hstate
    cases hafter
    exact absurd rfl hnot
  | @wrote other hpump hstate hout =>
    subst hstate
    simp only [AclWriter.following] at hafter
    split at hafter <;> cases hafter
  | took _ _ hstate | dropped _ _ hstate | undeliverable _ _ hstate | encoded _ _ hstate
  | empty _ _ hstate | cut _ _ hstate | failed _ hstate =>
    subst hstate
    cases hafter

/-- **One step** revives nothing, if no handle comes up too early. -/
theorem Aged.step (h : r.Aged) (hpieces : r.Pieces) (hbooks : Books r.writer.buffers r.down r.peak)
    {action : AclAction} (hproper : r.Proper action) : (r.step action).Aged := by
  refine ⟨fun number hnumber => ?_, ?_⟩
  · have hle := (length_finished r action).trans hnumber
    have hkept := h.kept number hle
    cases action with
    | linkDown handle =>
      simp only [AclRun.step, ages]
      split
      · rw [Age.goDown_ne hkept]
        exact Age.noConfusion
      · exact hkept
    | linkUp handle =>
      simp only [AclRun.step, ages]
      split
      next hfor => exact Age.goUp_ne hkept (hproper handle rfl number hle hfor)
      next => exact hkept
    | send _ | configure _ _ | completed _ _ | wake | pump _ => exact hkept
  · intro progress hwriting hdown
    cases action with
    | linkDown handle =>
      have hpump : r.writer.pump = .sending .writing progress := hwriting
      have hkept := h.kept r.finished.length le_rfl
      rw [finished_other (fun _ h => by cases h)]
      simp only [AclRun.step, ages]
      split
      · exact Age.goDown_ne hkept
      next hother =>
        rw [hpieces.isFor (congrArg Pump.job hpump)] at hother
        refine h.writing progress hpump ?_
        rw [← hdown]
        exact (update_of_ne hother ..).symm
    | linkUp handle =>
      have hpump : r.writer.pump = .sending .writing progress := hwriting
      have hother : progress.job.handle ≠ handle := by
        rintro rfl
        simp only [AclRun.step, downs, update_self] at hdown
        cases hdown
      rw [finished_other (fun _ h => by cases h)]
      have hnot : ¬ r.isFor handle r.finished.length = true := by
        rwa [hpieces.isFor (congrArg Pump.job hpump)]
      simp only [AclRun.step, ages, if_neg hnot]
      refine h.writing progress hpump ?_
      rw [← hdown]
      exact (update_of_ne hother ..).symm
    | send job =>
      have hpump : (r.writer.send job).pump = r.writer.pump := by
        unfold AclWriter.send
        split <;> rfl
      rw [finished_other (fun _ h => by cases h)]
      exact h.writing progress (hpump.symm.trans hwriting) hdown
    | wake =>
      rw [finished_other (fun _ h => by cases h)]
      rcases wake_cases r.writer with hpump | ⟨other, -, hafter⟩
      · exact h.writing progress (hpump.symm.trans hwriting) hdown
      · cases hafter.symm.trans hwriting
    | configure _ _ | completed _ _ =>
      rw [finished_other (fun _ h => by cases h)]
      exact h.writing progress hwriting hdown
    | pump taken => exact h.writing_pump hbooks hwriting hdown

/-! ## What the controller holds -/

/-- A fragment that has a credit, and is yet to be written on a link that is up.
-/
def inFlight (r : AclRun) (handle : ConnectionHandle) : ℕ :=
  match r.writer.pump with
  | .sending .writing progress =>
    if progress.job.handle = handle ∧ r.down handle = false then 1 else 0
  | _ => 0

/-- The controller holds no more for a link than is booked for it. -/
def Booked (r : AclRun) : Prop :=
  ∀ handle, r.held handle + r.inFlight handle ≤ r.writer.buffers.credits.outstanding handle

theorem inFlight_writing (hpump : r.writer.pump = .sending .writing progress)
    (handle : ConnectionHandle) :
    r.inFlight handle = if progress.job.handle = handle ∧ r.down handle = false then 1 else 0 := by
  simp only [inFlight, hpump]

theorem inFlight_of_ne (h : ∀ progress, r.writer.pump ≠ .sending .writing progress)
    (handle : ConnectionHandle) : r.inFlight handle = 0 := by
  unfold inFlight
  split
  next progress hpump => exact absurd hpump (h progress)
  · rfl

/-- What others do keeps a fragment in flight, or wakes a writer that has none.
-/
theorem Booked.wait (h : r.Booked) (hheld : (r.step action).held = r.held)
    (hdown : (r.step action).down = r.down) (hpump : (r.step action).writer.pump = r.writer.pump)
    (hcredits : (r.step action).writer.buffers.credits.outstanding =
      r.writer.buffers.credits.outstanding) : (r.step action).Booked := by
  intro handle
  have hbefore := h handle
  have hsame : (r.step action).inFlight handle = r.inFlight handle := by
    unfold inFlight
    rw [hpump, hdown]
  rw [hheld, hsame, hcredits]
  exact hbefore

/-- The writer has no credit for a fragment after its step. -/
theorem Booked.without (h : r.Booked)
    (hheld : ∀ handle, (r.step action).held handle ≤ r.held handle + r.inFlight handle)
    (hpump : ∀ progress, (r.step action).writer.pump ≠ .sending .writing progress)
    (hcredits : (r.step action).writer.buffers.credits.outstanding =
      r.writer.buffers.credits.outstanding) : (r.step action).Booked := by
  intro handle
  rw [inFlight_of_ne hpump, hcredits, Nat.add_zero]
  exact (hheld handle).trans (h handle)

theorem Booked.claimed (h : r.Booked) {progress : Progress} {taken : Bool}
    (hpump : r.writer.pump = .sending .claiming progress)
    (hclaim : (r.writer.buffers.credits.claim progress.job.handle).2 = true)
    (hstep : r.writer.step (.pump taken) = ({ r.writer with
      buffers := { r.writer.buffers with
        credits := (r.writer.buffers.credits.claim progress.job.handle).1 }
      pump := .sending .writing progress }, none)) : (r.step (.pump taken)).Booked := by
  intro handle
  have hbefore := h handle
  rw [inFlight_of_ne (by simp [hpump])] at hbefore
  have hafter := inFlight_writing (r := r.step (.pump taken))
    (congrArg (fun result => result.1.pump) hstep) handle
  have hheld : (r.step (.pump taken)).held = r.held := by
    simp only [AclRun.step, hstep, holds]
  have hcredits : (r.step (.pump taken)).writer.buffers.credits.outstanding =
      update r.writer.buffers.credits.outstanding progress.job.handle
        (r.writer.buffers.credits.outstanding progress.job.handle + 1) := by
    simp only [AclRun.step, hstep]
    unfold AclCredits.claim at hclaim ⊢
    split at hclaim
    · cases hclaim
    next hsome => rw [if_neg hsome]
  rw [hheld, hcredits, hafter]
  by_cases hsame : handle = progress.job.handle
  · have hone : (if progress.job.handle = handle ∧ (r.step (.pump taken)).down handle = false then 1
        else 0) ≤ 1 := by
      split
      · exact le_rfl
      · exact Nat.zero_le 1
    rw [hsame] at hbefore hone ⊢
    rw [update_self]
    omega
  · rw [if_neg (fun hboth => hsame hboth.1.symm), update_of_ne hsame]
    exact hbefore

theorem inFlight_linkDown_self (r : AclRun) (handle : ConnectionHandle) :
    (r.step (.linkDown handle)).inFlight handle = 0 := by
  unfold inFlight
  split
  · refine if_neg ?_
    rintro ⟨-, hup⟩
    simp only [AclRun.step, downs, update_self] at hup
    cases hup
  · rfl

theorem inFlight_linkDown_of_ne {handle other : ConnectionHandle} (h : other ≠ handle) :
    (r.step (.linkDown handle)).inFlight other = r.inFlight other := by
  have hdown : (r.step (.linkDown handle)).down other = r.down other := update_of_ne h ..
  unfold inFlight
  simp only [hdown]
  rfl

/-- A handle comes up while nothing that was queued for it before has a credit.
-/
theorem inFlight_linkUp (haged : r.Aged) (hpieces : r.Pieces) {handle : ConnectionHandle}
    (hproper : r.Proper (.linkUp handle)) (other : ConnectionHandle) :
    (r.step (.linkUp handle)).inFlight other = r.inFlight other := by
  by_cases hwriting : ∃ progress, r.writer.pump = .sending .writing progress
  · obtain ⟨progress, hpump⟩ := hwriting
    have hfor := hpieces.isFor (congrArg Pump.job hpump) handle
    have hup : progress.job.handle = handle → r.down handle = false := by
      rintro rfl
      by_contra hdown
      have hdowned := haged.writing progress hpump (Bool.eq_true_of_not_eq_false hdown)
      exact hproper _ rfl _ le_rfl (hfor.mpr rfl) hdowned
    rw [inFlight_writing hpump, inFlight_writing (r := r.step (.linkUp handle)) hpump]
    have hdown : (progress.job.handle = other ∧ (r.step (.linkUp handle)).down other = false) ↔
        progress.job.handle = other ∧ r.down other = false := by
      refine and_congr_right fun hother => ?_
      simp only [AclRun.step, downs, update_apply]
      split
      next hsame => exact iff_of_true rfl (hsame ▸ hup (hother.trans hsame))
      next => exact Iff.rfl
    simp only [hdown]
  · have hnone : ∀ progress, r.writer.pump ≠ .sending .writing progress :=
      fun progress hpump => hwriting ⟨progress, hpump⟩
    rw [inFlight_of_ne hnone, inFlight_of_ne (r := r.step (.linkUp handle)) hnone]

/-- A fragment is in flight from the credit it was given until it is written. -/
theorem Booked.pump (h : r.Booked) (taken : Bool) : (r.step (.pump taken)).Booked := by
  have hcases := AclWriter.pump_cases r.writer taken
  generalize hresult : r.writer.advance taken = result at hcases
  obtain ⟨t, out⟩ := result
  have hstep : r.writer.step (.pump taken) = (t, out) := hresult
  cases hcases with
  | idle hstate hout =>
    subst hstate hout
    refine h.wait ?_ rfl ?_ ?_
    · simp only [AclRun.step, hstep, holds]
    · simp only [AclRun.step, hstep]
    · simp only [AclRun.step, hstep]
  | claimed hpump halive hclaim hstate hout =>
    subst hstate hout
    exact h.claimed hpump hclaim hstep
  | @wrote progress hpump hstate hout =>
    subst hstate hout
    refine h.without (fun handle => ?_) ?_ ?_
    · rw [inFlight_writing hpump]
      simp only [AclRun.step, hstep, holds, fragment]
      by_cases hsame : handle = progress.job.handle
      · subst hsame
        cases hdown : r.down progress.job.handle with
        | true | false => simp
      · split
        · exact Nat.le_add_right ..
        · rw [update_of_ne hsame]
          exact Nat.le_add_right ..
    · intro other hother
      simp only [AclRun.step, hstep, AclWriter.following] at hother
      split at hother <;> cases hother
    · simp only [AclRun.step, hstep]
  | paused hpump hbefore hafter hstate hout =>
    subst hstate hout
    refine h.without (fun handle => ?_) ?_ ?_
    · simp only [AclRun.step, hstep, holds]
      exact Nat.le_add_right ..
    · intro other hother
      simp only [AclRun.step, hstep] at hother
      cases hother
      exact hafter rfl
    · simp only [AclRun.step, hstep]
  | took _ _ hstate hout | dropped _ _ hstate hout | undeliverable _ _ hstate hout
  | encoded _ _ hstate hout | empty _ _ hstate hout | cut _ _ hstate hout
  | failed _ hstate hout =>
    subst hstate hout
    refine h.without (fun handle => ?_) ?_ ?_
    · simp only [AclRun.step, hstep, holds]
      exact Nat.le_add_right ..
    · intro other hother
      simp only [AclRun.step, hstep] at hother
      cases hother
    · simp only [AclRun.step, hstep]

theorem Booked.step (h : r.Booked) (haged : r.Aged) (hpieces : r.Pieces) {action : AclAction}
    (hproper : r.Proper action) (hhonest : r.Honest action) : (r.step action).Booked := by
  cases action with
  | send job =>
    have hsend : (r.writer.send job).pump = r.writer.pump := by
      unfold AclWriter.send
      split <;> rfl
    refine h.wait rfl rfl hsend ?_
    simp only [AclRun.step, AclWriter.step, buffers_send]
  | configure capacity mtu => exact h.wait rfl rfl rfl rfl
  | completed handle count =>
    intro other
    have hbefore := h other
    have hcount := hhonest handle count rfl
    have hflight : (r.step (.completed handle count)).inFlight other = r.inFlight other := rfl
    rw [hflight]
    simp only [AclRun.step, holds, AclWriter.step, AclWriter.completed, AclCredits.complete]
    by_cases hsame : other = handle
    · subst hsame
      rw [update_self, update_self]
      omega
    · rw [update_of_ne hsame, update_of_ne hsame]
      exact hbefore
  | linkDown handle =>
    intro other
    by_cases hsame : other = handle
    · subst hsame
      rw [inFlight_linkDown_self]
      simp only [AclRun.step, holds, update_self]
      exact Nat.zero_le _
    · rw [inFlight_linkDown_of_ne hsame]
      simp only [AclRun.step, holds, AclWriter.step, AclWriter.linkDown, AclCredits.linkDown]
      rw [update_of_ne hsame, update_of_ne hsame]
      exact h other
  | linkUp handle =>
    intro other
    rw [inFlight_linkUp haged hpieces hproper]
    exact h other
  | wake =>
    rcases wake_cases r.writer with hpump | ⟨progress, hbefore, hafter⟩
    · exact h.wait rfl rfl hpump (by simp only [AclRun.step, AclWriter.step, buffers_wake])
    · refine h.without (fun handle => Nat.le_add_right ..) ?_ ?_
      · intro other hother
        cases hafter.symm.trans hother
      · simp only [AclRun.step, AclWriter.step, buffers_wake]
  | pump taken => exact h.pump taken

/-! ## The headline result -/

/-- Only a smaller pool leaves more outstanding than it has room for. -/
theorem total_step (r : AclRun) (action : AclAction) :
    (r.step action).writer.buffers.credits.total ≤ max r.writer.buffers.credits.total
      (r.step action).writer.buffers.credits.capacity := by
  cases action with
  | send job =>
    simp only [AclRun.step, AclWriter.step, buffers_send]
    exact le_max_left ..
  | configure capacity mtu => exact le_max_left ..
  | completed handle count | linkDown handle => exact le_max_of_le_left (Nat.sub_le ..)
  | linkUp handle => exact le_max_left ..
  | wake =>
    simp only [AclRun.step, AclWriter.step, buffers_wake]
    exact le_max_left ..
  | pump taken =>
    have hcases := AclWriter.pump_cases r.writer taken
    simp only [AclRun.step, AclWriter.step]
    generalize r.writer.advance taken = result at hcases
    obtain ⟨t, out⟩ := result
    cases hcases with
    | claimed hpump halive hclaim hstate hout =>
      subst hstate
      have htotal := AclCredits.total_claim hclaim
      refine le_max_of_le_right ?_
      unfold AclCredits.claim at htotal ⊢
      split <;> simp_all
    | idle hstate | took _ _ hstate | dropped _ _ hstate | undeliverable _ _ hstate
    | encoded _ _ hstate | empty _ _ hstate | cut _ _ hstate | paused _ _ _ hstate
    | wrote _ hstate | failed _ hstate =>
      subst hstate
      exact le_max_left ..

/-- What holds in every state. -/
structure Kept (r : AclRun) : Prop where
  books : Books r.writer.buffers r.down r.peak
  pieces : r.Pieces
  aged : r.Aged

theorem kept_spawn : spawn.Kept := ⟨books_spawn, pieces_spawn, aged_spawn⟩

theorem Kept.step (h : r.Kept) {action : AclAction} (hproper : r.Proper action) :
    (r.step action).Kept :=
  ⟨h.books.step action, h.pieces.step h.books action, h.aged.step h.pieces h.books hproper⟩

theorem Kept.severed (h : r.Kept) (action : AclAction) : r.Severed action :=
  fun _ => h.aged.kept _ le_rfl

/-- **The writer keeps links apart**, when a handle comes up only once nothing
is left of what was queued for it before it went down.

* No fragment is written for a link that has gone down and come up since.
* No more is outstanding than the most that the controller has said it holds,
  and only a pool that is made smaller has more outstanding than it has room
  for.
* What is written are whole PDUs in the order of the queue, and a PDU is cut
  only if its own link is down.
* A dead link has no credit.
* A controller that reports only what it holds, holds no more than it has said.
  -/
theorem writer_sound (actions : List AclAction) (h : Along step Proper actions spawn) :
    Along step (fun r action => r.Severed action ∧
        (r.step action).writer.buffers.credits.total ≤ max r.writer.buffers.credits.total
          (r.step action).writer.buffers.credits.capacity) actions spawn ∧
      (run actions).writer.buffers.credits.total ≤ (run actions).peak ∧
      (run actions).Pieces ∧
      (∀ handle, (run actions).down handle = true →
        (run actions).writer.buffers.credits.outstanding handle = 0) ∧
      (Along step Honest actions spawn →
        ∑ handle, (run actions).held handle ≤ (run actions).peak) := by
  have hkept : (run actions).Kept := h.foldl Kept kept_spawn fun _ _ hkept => hkept.step
  refine ⟨?_, hkept.books.total, hkept.pieces, hkept.books.clear, fun hhonest => ?_⟩
  · exact h.imp_of_invariant Kept kept_spawn fun r action hkept hproper =>
      ⟨⟨hkept.severed action, total_step r action⟩, hkept.step hproper⟩
  · have hbooked : (run actions).Booked ∧ (run actions).Kept :=
      (along_and.mpr ⟨h, hhonest⟩).foldl (fun r => r.Booked ∧ r.Kept)
        ⟨fun _ => le_rfl, kept_spawn⟩ fun r action hboth hgood =>
          ⟨hboth.1.step hboth.2.aged hboth.2.pieces hgood.1 hgood.2, hboth.2.step hgood.1⟩
    calc ∑ handle, (run actions).held handle
        ≤ ∑ handle, (run actions).writer.buffers.credits.outstanding handle :=
          Finset.sum_le_sum fun handle _ =>
            (Nat.le_add_right _ _).trans (hbooked.1 handle)
      _ = (run actions).writer.buffers.credits.total := hkept.books.balanced
      _ ≤ (run actions).peak := hkept.books.total

/-! ### Two links on one handle -/

def exampleHandle : ConnectionHandle := ⟨0x0001, by decide⟩

def exampleJob : Job := ⟨exampleHandle, ⟨⟨0x0040⟩, [1, 2, 3, 4]⟩⟩

/-- The steps that a writer needs for a PDU of one fragment. -/
def exampleSteps : List AclAction :=
  [.pump true, .pump true, .pump true, .pump true, .pump true]

/-- The link goes down when its PDU is written, and its handle comes up. -/
def exampleActions : List AclAction :=
  [.send exampleJob] ++ exampleSteps ++ [.linkDown exampleHandle, .linkUp exampleHandle]

/-- The link goes down, and its handle comes up, before the writer has its PDU.
-/
def exampleLeak : List AclAction :=
  [.send exampleJob, .linkDown exampleHandle, .linkUp exampleHandle] ++ exampleSteps

theorem proper_other (h : ∀ handle, action ≠ .linkUp handle) :
    r.Proper action := fun handle hup => absurd hup (h handle)

theorem proper_example : Along step Proper exampleActions spawn := by
  refine along_append.mpr ⟨?_, proper_other (fun _ h => by cases h), fun handle hup number hle hfor =>
    ?_, trivial⟩
  · refine ⟨proper_other ?_, proper_other ?_, proper_other ?_, proper_other ?_, proper_other ?_,
      proper_other ?_, trivial⟩
    all_goals
      intro handle h
      cases h
  · have hnone : (exampleActions.dropLast.foldl step spawn).sent[number]? = none := by
      rw [List.getElem?_eq_none_iff]
      exact hle
    rw [isFor] at hfor
    erw [hnone] at hfor
    cases hfor

theorem writer_sound_example : (run exampleActions).written.length = 1 ∧
    (run exampleActions).written =
      (run exampleActions).finished.flatMap Piece.packets ++ (run exampleActions).current :=
  ⟨by decide, (writer_sound exampleActions proper_example).2.2.1.written⟩

/-- The PDU is written on the link that came after its own. -/
theorem writer_leaks : ¬ Along step Severed exampleLeak spawn := by
  intro h
  have hsevered := h.getElem (by decide : 7 < exampleLeak.length)
  exact hsevered (by decide) (by decide)

end AclRun

end Castaway.Bluetooth
