import Castaway.Hci.Packet
import Castaway.Lib.Runs

/-!
# The controller's command window

A controller says with every answer how many commands it takes now, and what is
offered beyond that waits.  The count is the whole window and not an increment,
answers come out of order or not at all, and a command whose answer is given up
gives its slot back.

Whatever is offered comes out in the order in which it was offered: what has
been handed out and what waits make up what was submitted (`CommandRun.Sound`).
-/

namespace Castaway.Hci

open List

/-- A command, so far as the window reads it: its opcode, and its parameters. -/
structure Command where
  opcode : OpCode
  params : Bytes
  deriving DecidableEq

/-- The controller's command window, as credits. -/
structure CommandCredits where
  /-- Credits granted and not yet spent. -/
  available : ℕ := 1
  /-- Commands with nowhere to go until a credit comes back. -/
  waiting : List Command := []
  /-- What is in flight, oldest first. -/
  inFlight : List OpCode := []
  deriving DecidableEq

namespace CommandCredits

/-- A window with the one credit that is granted before the controller speaks.
-/
def new : CommandCredits := {}

/-- Offer a command.  It is sent now, or it is queued. -/
def submit (credits : CommandCredits) (command : Command) : CommandCredits × Option Command :=
  if credits.available = 0 then
    ({ credits with waiting := credits.waiting ++ [command] }, none)
  else
    ({ credits with
        available := credits.available - 1
        inFlight := credits.inFlight ++ [command.opcode] }, some command)

/-- The loop of `release`, over the commands that wait. -/
def releaseFrom (available : ℕ) (inFlight : List OpCode) :
    List Command → CommandCredits × List Command
  | [] => (⟨available, [], inFlight⟩, [])
  | command :: waiting =>
    if 0 < available then
      let released := releaseFrom (available - 1) (inFlight ++ [command.opcode]) waiting
      (released.1, command :: released.2)
    else (⟨available, command :: waiting, inFlight⟩, [])

/-- Everything the current window has room for, oldest first. -/
def release (credits : CommandCredits) : CommandCredits × List Command :=
  releaseFrom credits.available credits.inFlight credits.waiting

/-- The controller answered a command and said how many it will now accept.  An
answer to something we never sent leaves what is in flight alone. -/
def answered (credits : CommandCredits) (opcode : OpCode) (allowedPackets : UInt8) :
    CommandCredits × List Command :=
  ({ credits with
      inFlight := credits.inFlight.erase opcode
      available := allowedPackets.toNat } : CommandCredits).release

/-- Give up on the oldest command in flight.  Its slot lets through what waits,
and it is not sent again. -/
def abandonOldest (credits : CommandCredits) : CommandCredits × Option OpCode × List Command :=
  match credits.inFlight with
  | [] => (credits, none, [])
  | opcode :: inFlight =>
    let released :=
      ({ credits with inFlight, available := max credits.available 1 } : CommandCredits).release
    (released.1, some opcode, released.2)

/-! ## One call -/

def Spent (credits : CommandCredits) : Prop := credits.waiting ≠ [] → credits.available = 0

variable {credits : CommandCredits}

/-- What is released stood in front of what goes on waiting, and was paid for.
-/
theorem releaseFrom_spec (available : ℕ) (inFlight : List OpCode) (waiting : List Command) :
    (releaseFrom available inFlight waiting).2 ++ (releaseFrom available inFlight waiting).1.waiting
        = waiting ∧
      (releaseFrom available inFlight waiting).1.available +
        (releaseFrom available inFlight waiting).2.length = available ∧
      (releaseFrom available inFlight waiting).1.Spent := by
  induction waiting generalizing available inFlight with
  | nil => exact ⟨rfl, rfl, fun h => absurd rfl h⟩
  | cons command waiting ih =>
    unfold releaseFrom
    by_cases hcredit : 0 < available
    · rw [if_pos hcredit]
      obtain ⟨hwaiting, hpaid, hspent⟩ := ih (available - 1) (inFlight ++ [command.opcode])
      refine ⟨?_, ?_, hspent⟩
      · rw [cons_append, hwaiting]
      · dsimp only
        rw [length_cons]
        omega
    · rw [if_neg hcredit]
      exact ⟨rfl, rfl, fun _ => Nat.eq_zero_of_not_pos hcredit⟩

theorem release_spec (credits : CommandCredits) :
    credits.release.2 ++ credits.release.1.waiting = credits.waiting ∧
      credits.release.1.available + credits.release.2.length = credits.available ∧
      credits.release.1.Spent :=
  releaseFrom_spec _ _ _

theorem releaseFrom_inFlight (available : ℕ) (inFlight : List OpCode) (waiting : List Command) :
    (releaseFrom available inFlight waiting).1.inFlight =
      inFlight ++ (releaseFrom available inFlight waiting).2.map Command.opcode := by
  induction waiting generalizing available inFlight with
  | nil => simp [releaseFrom]
  | cons command waiting ih =>
    unfold releaseFrom
    by_cases hcredit : 0 < available
    · rw [if_pos hcredit]
      dsimp only
      rw [ih, map_cons, append_assoc]
      rfl
    · rw [if_neg hcredit]
      simp

theorem releaseFrom_all {available : ℕ} (inFlight : List OpCode) {waiting : List Command}
    (h : waiting.length ≤ available) : releaseFrom available inFlight waiting =
      (⟨available - waiting.length, [], inFlight ++ waiting.map Command.opcode⟩, waiting) := by
  induction waiting generalizing available inFlight with
  | nil => simp [releaseFrom]
  | cons command waiting ih =>
    rw [length_cons] at h
    have hrest : waiting.length ≤ available - 1 := by omega
    unfold releaseFrom
    rw [if_pos (by omega), ih (inFlight ++ [command.opcode]) hrest]
    have hleft : available - 1 - waiting.length = available - (waiting.length + 1) := by omega
    simp [hleft]

/-- A command that is sent was not queued behind another one. -/
theorem submit_spec (h : credits.Spent) (command : Command) :
    (credits.submit command).2.toList ++ (credits.submit command).1.waiting =
        credits.waiting ++ [command] ∧
      (credits.submit command).1.available + (credits.submit command).2.toList.length =
        credits.available ∧
      (credits.submit command).1.Spent := by
  unfold submit
  by_cases hnone : credits.available = 0
  · rw [if_pos hnone]
    exact ⟨rfl, rfl, fun _ => hnone⟩
  · rw [if_neg hnone]
    have hempty : credits.waiting = [] := by
      by_contra hwaiting
      exact hnone (h hwaiting)
    refine ⟨?_, ?_, fun hwaiting => absurd hempty hwaiting⟩
    · simp [hempty]
    · change credits.available - 1 + 1 = credits.available
      omega

end CommandCredits

/-! ## Runs -/

inductive CommandCall where
  | submit (command : Command)
  | answered (opcode : OpCode) (allowedPackets : UInt8)
  | abandonOldest
  deriving DecidableEq

/-- The window with what was submitted to it and what it handed out, in order.
-/
structure CommandRun where
  credits : CommandCredits := .new
  submitted : List Command := []
  handed : List Command := []
  deriving DecidableEq

namespace CommandRun

/-- One call.  Both `submit` and the two releases hand out commands. -/
def call (run : CommandRun) : CommandCall → CommandRun
  | .submit command =>
    let offered := run.credits.submit command
    { credits := offered.1
      submitted := run.submitted ++ [command]
      handed := run.handed ++ offered.2.toList }
  | .answered opcode allowedPackets =>
    let released := run.credits.answered opcode allowedPackets
    { run with credits := released.1, handed := run.handed ++ released.2 }
  | .abandonOldest =>
    let released := run.credits.abandonOldest
    { run with credits := released.1, handed := run.handed ++ released.2.2 }

def calls (run : CommandRun) (calls : List CommandCall) : CommandRun := calls.foldl call run

/-- What was handed out and what waits make up what was submitted, and what
waits has no credit. -/
structure Sound (run : CommandRun) : Prop where
  inOrder : run.handed ++ run.credits.waiting = run.submitted
  spent : run.credits.Spent

theorem sound_start : Sound {} := ⟨rfl, fun h => absurd rfl h⟩

variable {run : CommandRun}

/-- What a release hands out stood in front of the queue. -/
theorem Sound.released (h : run.Sound) {credits : CommandCredits}
    (hwaiting : credits.waiting = run.credits.waiting) :
    Sound { run with credits := credits.release.1, handed := run.handed ++ credits.release.2 } := by
  obtain ⟨horder, -, hspent⟩ := credits.release_spec
  refine ⟨?_, hspent⟩
  calc run.handed ++ credits.release.2 ++ credits.release.1.waiting
      = run.handed ++ (credits.release.2 ++ credits.release.1.waiting) := append_assoc ..
    _ = run.handed ++ run.credits.waiting := by rw [horder, hwaiting]
    _ = run.submitted := h.inOrder

theorem Sound.call (h : run.Sound) (call : CommandCall) : (run.call call).Sound := by
  cases call with
  | submit command =>
    obtain ⟨horder, -, hspent⟩ := CommandCredits.submit_spec h.spent command
    refine ⟨?_, hspent⟩
    calc run.handed ++ (run.credits.submit command).2.toList ++
          (run.credits.submit command).1.waiting
        = run.handed ++ ((run.credits.submit command).2.toList ++
            (run.credits.submit command).1.waiting) := append_assoc ..
      _ = run.handed ++ (run.credits.waiting ++ [command]) := by rw [horder]
      _ = run.submitted ++ [command] := by rw [← append_assoc, h.inOrder]
  | answered opcode allowedPackets => exact h.released rfl
  | abandonOldest =>
    change Sound { run with
      credits := run.credits.abandonOldest.1
      handed := run.handed ++ run.credits.abandonOldest.2.2 }
    unfold CommandCredits.abandonOldest
    split
    · rw [append_nil]
      exact h
    · exact h.released rfl

theorem Sound.calls (h : run.Sound) (calls : List CommandCall) : (run.calls calls).Sound := by
  induction calls generalizing run with
  | nil => exact h
  | cons call calls ih => exact ih (h.call call)

/-! ## What one answer pays for -/

theorem length_handed_submits (h : run.Sound) (commands : List Command) :
    (run.calls (commands.map .submit)).handed.length +
        (run.calls (commands.map .submit)).credits.available =
      run.handed.length + run.credits.available := by
  induction commands generalizing run with
  | nil => rfl
  | cons command commands ih =>
    obtain ⟨-, hpaid, -⟩ := CommandCredits.submit_spec h.spent command
    have hstep : run.calls ((command :: commands).map .submit) =
        (run.call (.submit command)).calls (commands.map .submit) := rfl
    rw [hstep, ih (h.call (.submit command))]
    change (run.handed ++ (run.credits.submit command).2.toList).length +
      (run.credits.submit command).1.available = _
    rw [length_append]
    omega

/-- From an answer until the next answer or abandonment no more commands go out
than the answer allowed. -/
theorem length_handed_answered (h : run.Sound) (opcode : OpCode) (allowedPackets : UInt8)
    (commands : List Command) :
    ((run.call (.answered opcode allowedPackets)).calls (commands.map .submit)).handed.length ≤
      run.handed.length + allowedPackets.toNat := by
  have hsubmits := length_handed_submits (h.call (.answered opcode allowedPackets)) commands
  obtain ⟨-, hpaid, -⟩ := CommandCredits.release_spec
    { run.credits with
      inFlight := run.credits.inFlight.erase opcode
      available := allowedPackets.toNat }
  have hanswered : (run.call (.answered opcode allowedPackets)).handed.length +
      (run.call (.answered opcode allowedPackets)).credits.available =
        run.handed.length + allowedPackets.toNat := by
    change (run.handed ++ _).length + _ = _
    rw [length_append]
    change run.handed.length + (CommandCredits.release _).2.length +
      (CommandCredits.release _).1.available = _
    dsimp only at hpaid
    omega
  omega

/-- **The command window is a lossless queue.**  Whatever is submitted, answered
and abandoned, the commands handed out are a prefix of the commands submitted,
in order and each once, and the rest are those that wait; a command waits only
without a credit; and an answer that grants so many commands lets no more of
them out, up to the next answer or abandonment. -/
theorem window_sound (calls : List CommandCall) :
    (({} : CommandRun).calls calls).handed ++ (({} : CommandRun).calls calls).credits.waiting =
        (({} : CommandRun).calls calls).submitted ∧
      ((({} : CommandRun).calls calls).credits.waiting ≠ [] →
        (({} : CommandRun).calls calls).credits.available = 0) ∧
      ∀ (opcode : OpCode) (allowedPackets : UInt8) (commands : List Command),
        (({} : CommandRun).calls (calls ++ .answered opcode allowedPackets ::
            commands.map .submit)).handed.length ≤
          (({} : CommandRun).calls calls).handed.length + allowedPackets.toNat := by
  have hsound := sound_start.calls calls
  refine ⟨hsound.inOrder, hsound.spent, fun opcode allowedPackets commands => ?_⟩
  have happend : ({} : CommandRun).calls (calls ++ .answered opcode allowedPackets ::
      commands.map .submit) =
        ((({} : CommandRun).calls calls).call (.answered opcode allowedPackets)).calls
          (commands.map .submit) := by
    rw [CommandRun.calls, foldl_append, foldl_cons]
    rfl
  rw [happend]
  exact length_handed_answered hsound opcode allowedPackets commands

end CommandRun

end Castaway.Hci
