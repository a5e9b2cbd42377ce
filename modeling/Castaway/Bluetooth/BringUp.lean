import Castaway.Bluetooth.Host

/-!
# The bring-up sequence

What is fed to a host after its start, with what has left it, what it reported
and what was settled: a command of the sequence is settled when its answer comes
while it is in flight, or when the watchdog gives it up.

## Strategy

`advanceBringUp` does not ask which command an answer is to, and the watchdog
gives up on whichever command is oldest.  While these are the command that is
awaited, and the next one finds room (`Orderly`), the sequence keeps its course
(`Course`): the commands that have left are one more than those settled, until
the last one ends it.
-/

namespace Castaway.Bluetooth

open Castaway.Hci (BdAddr Command CommandCredits OpCode)
open List

/-! ## The sequence -/

namespace HostController

def sequence (config : HostConfig) : List Command := .reset :: bringUp config

def sequenceOpcodes : List OpCode :=
  [⟨0x0C03⟩, ⟨0x1001⟩, ⟨0x1005⟩, ⟨0x1009⟩, ⟨0x0C01⟩, ⟨0x0C24⟩, ⟨0x0C13⟩, ⟨0x0C52⟩, ⟨0x0C56⟩,
    ⟨0x0C1E⟩, ⟨0x0C43⟩, ⟨0x0C47⟩, ⟨0x0C1A⟩]

theorem map_opcode_sequence (config : HostConfig) :
    (sequence config).map Command.opcode = sequenceOpcodes := rfl

/-- The opcode is one of the sequence.  No answer to a connection or a pairing
has one. -/
def ours (opcode : OpCode) : Bool := opcode ∈ sequenceOpcodes

/-- The command of the sequence that was last to be submitted. -/
def awaited (host : HostController) : Option OpCode :=
  sequenceOpcodes[12 - host.pending.length]?

def GivesUp (host : HostController) (elapsed : ℕ) : Prop :=
  host.commands.inFlight ≠ [] ∧ commandTimeout ≤ host.unansweredFor + elapsed

instance (host : HostController) (elapsed : ℕ) : Decidable (host.GivesUp elapsed) :=
  inferInstanceAs (Decidable (_ ∧ _))

def settles (host : HostController) : HostInput → Option OpCode
  | .event event => (event.answer?.map Prod.fst).filter (· ∈ host.commands.inFlight)
  | .tick elapsed => if host.GivesUp elapsed then host.commands.inFlight.head? else none

/-- An answer to the sequence is to the command that is awaited, and leaves room
for the next one; and the watchdog gives up on that command only, with nothing
waiting, and not on the last one. -/
def Orderly (host : HostController) : HostInput → Prop
  | .event event => host.state = .initializing →
      ∀ opcode allowedPackets, event.answer? = some (opcode, allowedPackets) →
        host.awaited = some opcode ∧ opcode ∈ host.commands.inFlight ∧
          (host.pending ≠ [] → host.commands.waiting.length < allowedPackets.toNat)
  | .tick elapsed => host.state = .initializing → host.GivesUp elapsed →
      host.awaited = host.commands.inFlight.head? ∧ host.commands.waiting = [] ∧
        host.pending ≠ []

instance (host : HostController) (input : HostInput) : Decidable (host.Orderly input) :=
  match input with
  | .event event =>
    decidable_of_iff (host.state = .initializing → ∀ answer ∈ event.answer?,
      host.awaited = some answer.1 ∧ answer.1 ∈ host.commands.inFlight ∧
        (host.pending ≠ [] → host.commands.waiting.length < answer.2.toNat))
      (imp_congr_right fun _ => Prod.forall)
  | .tick elapsed =>
    inferInstanceAs (Decidable (host.state = .initializing → host.GivesUp elapsed → _ ∧ _ ∧ _))

/-- A tick after the bring-up does not begin it again. -/
theorem state_tick (host : HostController) (elapsed : ℕ) (h : host.state ≠ .initializing) :
    (host.tick elapsed).1.state = host.state := by
  unfold tick
  split
  · rfl
  · dsimp only
    split
    · rfl
    · rw [abandon]
      dsimp only
      rw [if_neg h]

end HostController

/-! ## Runs -/

/-- What was reported: the address, the credits and the largest fragment. -/
abbrev Report := BdAddr × UInt16 × UInt16

def HostAction.report? : HostAction → Option Report
  | ready address aclCredits aclMtu => some (address, aclCredits, aclMtu)
  | _ => none

structure BringUp where
  host : HostController
  sent : List Command := []
  reports : List Report := []
  writer : List AclAction := []
  /-- The commands of the sequence that were answered or given up. -/
  settled : List OpCode := []
  /-- What the answers said, if they came. -/
  size : Option BufferSize := none
  address : Option BdAddr := none

namespace BringUp

open HostController (ours sequence sequenceOpcodes)

/-- What the answer says that settles the reading of the buffers. -/
def sizeIn (host : HostController) : HostInput → Option BufferSize
  | .event (.commandComplete _ opcode params) =>
    if opcode = ⟨0x1005⟩ ∧ opcode ∈ host.commands.inFlight then BufferSize.parse params else none
  | _ => none

def addressIn (host : HostController) : HostInput → Option BdAddr
  | .event (.commandComplete _ opcode params) =>
    if opcode = ⟨0x1009⟩ ∧ opcode ∈ host.commands.inFlight then parseBdAddr params else none
  | _ => none

def note (run : BringUp) (input : HostInput) (fed : HostController × List HostAction) :
    BringUp where
  host := fed.1
  sent := run.sent ++ fed.2.filterMap HostAction.command?
  reports := run.reports ++ fed.2.filterMap HostAction.report?
  writer := run.writer ++ toWriter input fed.2
  settled := run.settled ++ ((run.host.settles input).filter ours).toList
  size := (sizeIn run.host input).or run.size
  address := (addressIn run.host input).or run.address

def feed (run : BringUp) (input : HostInput) : BringUp := run.note input (run.host.feed input)

def begin (config : HostConfig) (linkKeys : BdAddr → Option Hci.LinkKey) : BringUp :=
  let started := ({ config, linkKeys } : HostController).start
  { host := started.1, sent := started.2.filterMap HostAction.command? }

def left (run : BringUp) : List Command := run.sent.filter fun command => ours command.opcode

/-! ## What is wanted of the bring-up -/

def Carries (run : BringUp) (report : Report) : Prop :=
  (∀ size, run.size = some size →
    report.2 = (max size.totalPackets 1, max size.aclMaxLen 1)) ∧
  ∀ address, run.address = some address → report.1 = address

/-- The sequence goes out in order, a command when all before it are settled,
and is reported once, at its end, to the writer too. -/
structure Sequential (config : HostConfig) (run : BringUp) : Prop where
  inOrder : run.left <+: sequence config
  oneByOne : run.settled <+: sequenceOpcodes ∧ run.left.length ≤ run.settled.length + 1
  once : run.reports.length ≤ 1
  ended : run.reports ≠ [] → run.left = sequence config ∧ run.settled = sequenceOpcodes
  carries : ∀ report ∈ run.reports, run.Carries report
  told : ∀ report ∈ run.reports,
    AclAction.configure report.2.1.toNat report.2.2.toNat ∈ run.writer

/-! ## Actions that are no part of the sequence -/

def Quiet : HostAction → Prop
  | .send command => ours command.opcode = false
  | .ready .. => False
  | _ => True

/-- No command of the sequence waits, and nothing waits beside a slot. -/
structure Clear (credits : CommandCredits) : Prop where
  others : ∀ command ∈ credits.waiting, ours command.opcode = false
  spent : credits.Spent

def underWay (credits : CommandCredits) : List OpCode := credits.inFlight.filter ours

variable {credits : CommandCredits} {command : Command} {actions : List HostAction}
  {host : HostController} {event : Event}

theorem filter_command_of_quiet (h : ∀ action ∈ actions, Quiet action) :
    (actions.filterMap HostAction.command?).filter (fun command => ours command.opcode) = [] := by
  refine filter_eq_nil_iff.mpr fun command hcommand => ?_
  obtain ⟨action, haction, hsend⟩ := mem_filterMap.mp hcommand
  cases action <;> simp only [HostAction.command?, reduceCtorEq, Option.some.injEq] at hsend
  subst hsend
  simpa [Quiet] using h _ haction

theorem reports_of_quiet (h : ∀ action ∈ actions, Quiet action) :
    actions.filterMap HostAction.report? = [] := by
  refine filterMap_eq_nil_iff.mpr fun action haction => ?_
  have hquiet := h action haction
  cases action <;> first | rfl | exact hquiet.elim

/-- A command that is not of the sequence leaves the sequence alone. -/
theorem submit_quiet (hclear : Clear credits) (hother : ours command.opcode = false) :
    underWay (credits.submit command).1 = underWay credits ∧
      Clear (credits.submit command).1 ∧
      ∀ c ∈ (credits.submit command).2, ours c.opcode = false := by
  obtain ⟨-, -, hspent⟩ := CommandCredits.submit_spec hclear.spent command
  refine ⟨?_, ⟨?_, hspent⟩, ?_⟩
  · unfold underWay CommandCredits.submit
    split
    · rfl
    · rw [filter_append]
      simp [hother]
  · unfold CommandCredits.submit
    split
    · intro c hc
      rcases mem_append.mp hc with hwaiting | hnew
      · exact hclear.others c hwaiting
      · rwa [mem_singleton.mp hnew]
    · exact hclear.others
  · unfold CommandCredits.submit
    split
    · simp
    · simpa using hother

theorem paceFrom_quiet (h : ∀ action ∈ actions, Quiet action) (hclear : Clear credits) :
    underWay (HostController.paceFrom credits actions).1 = underWay credits ∧
      Clear (HostController.paceFrom credits actions).1 ∧
      ∀ action ∈ (HostController.paceFrom credits actions).2, Quiet action := by
  induction actions generalizing credits with
  | nil => exact ⟨rfl, hclear, fun action haction => nomatch haction⟩
  | cons action actions ih =>
    have hrest := fun a ha => h a (mem_cons_of_mem _ ha)
    have hhead := h action mem_cons_self
    cases action with
    | send command =>
      obtain ⟨hflight, hclear', hsent⟩ := submit_quiet hclear hhead
      obtain ⟨hflight', hclear'', hquiet⟩ := ih hrest hclear'
      refine ⟨hflight'.trans hflight, hclear'', fun a ha => ?_⟩
      rcases mem_append.mp ha with hnow | hlater
      · obtain ⟨c, hc, rfl⟩ := mem_map.mp hnow
        exact hsent c (Option.mem_toList.mp hc)
      · exact hquiet a hlater
    | ready => exact hhead.elim
    | _ =>
      obtain ⟨hflight, hclear', hquiet⟩ := ih hrest hclear
      refine ⟨hflight, hclear', fun a ha => ?_⟩
      rcases mem_cons.mp ha with rfl | hlater
      · trivial
      · exact hquiet a hlater

theorem release_quiet (credits : CommandCredits)
    (hclear : ∀ c ∈ credits.waiting, ours c.opcode = false) :
    underWay credits.release.1 = underWay credits ∧ Clear credits.release.1 ∧
      ∀ c ∈ credits.release.2, ours c.opcode = false := by
  obtain ⟨horder, -, hspent⟩ := CommandCredits.release_spec credits
  have hreleased : ∀ c ∈ credits.release.2, ours c.opcode = false := fun c hc =>
    hclear c (horder ▸ mem_append_left _ hc)
  refine ⟨?_, ⟨fun c hc => hclear c (horder ▸ mem_append_right _ hc), hspent⟩, hreleased⟩
  have hnone : (credits.release.2.map Command.opcode).filter ours = [] := by
    refine filter_eq_nil_iff.mpr fun opcode hopcode => ?_
    obtain ⟨c, hc, rfl⟩ := mem_map.mp hopcode
    simp [hreleased c hc]
  have hflight : credits.release.1.inFlight =
      credits.inFlight ++ credits.release.2.map Command.opcode :=
    CommandCredits.releaseFrom_inFlight _ _ _
  rw [underWay, hflight, filter_append, hnone, append_nil]
  rfl

/-- Nothing of the sequence changes between two hosts. -/
structure Aside (before after : HostController) : Prop where
  state : after.state = before.state
  pending : after.pending = before.pending
  address : after.address = before.address
  aclCredits : after.aclCredits = before.aclCredits
  aclMtu : after.aclMtu = before.aclMtu
  commands : after.commands = before.commands
  unansweredFor : after.unansweredFor = before.unansweredFor

theorem Aside.refl (host : HostController) : Aside host host := ⟨rfl, rfl, rfl, rfl, rfl, rfl, rfl⟩

/-- An event that answers no command has no part in the sequence. -/
theorem handle_quiet (host : HostController) (h : event.answer? = none) :
    Aside host (host.handle event).1 ∧ ∀ action ∈ (host.handle event).2, Quiet action := by
  have hnone : ∀ action ∈ ([] : List HostAction), Quiet action := fun _ ha => nomatch ha
  have hsend (command : Command) (hother : ours command.opcode = false) :
      ∀ action ∈ [HostAction.send command], Quiet action := by
    intro action haction
    rwa [mem_singleton.mp haction]
  cases event with
  | commandComplete | commandStatus => cases h
  | connectionRequest addr linkType =>
    unfold HostController.handle
    dsimp only
    split
    · exact ⟨.refl host, hsend _ rfl⟩
    · exact ⟨.refl host, hsend _ rfl⟩
  | connectionComplete status handle addr =>
    unfold HostController.handle
    dsimp only
    split
    · refine ⟨⟨rfl, rfl, rfl, rfl, rfl, rfl, rfl⟩, fun action haction => ?_⟩
      rcases mem_cons.mp haction with rfl | hrest
      · trivial
      · exact hsend _ rfl action hrest
    · exact ⟨.refl host, hnone⟩
  | disconnectionComplete handle reason =>
    exact ⟨⟨rfl, rfl, rfl, rfl, rfl, rfl, rfl⟩, by simp [HostController.handle, Quiet]⟩
  | authenticationComplete status handle =>
    unfold HostController.handle
    dsimp only
    split
    · exact ⟨.refl host, hnone⟩
    · split
      · exact ⟨⟨rfl, rfl, rfl, rfl, rfl, rfl, rfl⟩, by simp [Quiet]⟩
      · exact ⟨.refl host, hnone⟩
  | encryptionChange => exact ⟨.refl host, hnone⟩
  | remoteNameRequestComplete status addr name =>
    unfold HostController.handle
    dsimp only
    split
    · exact ⟨.refl host, by simp [Quiet]⟩
    · exact ⟨.refl host, hnone⟩
  | numberOfCompletedPackets pairs =>
    refine ⟨.refl host, fun action haction => ?_⟩
    obtain ⟨pair, -, rfl⟩ := mem_map.mp haction
    trivial
  | pinCodeRequest addr => exact ⟨.refl host, hsend _ rfl⟩
  | linkKeyRequest addr =>
    unfold HostController.handle
    dsimp only
    split
    · exact ⟨.refl host, hsend _ rfl⟩
    · exact ⟨.refl host, hsend _ rfl⟩
  | linkKeyNotification addr key =>
    exact ⟨⟨rfl, rfl, rfl, rfl, rfl, rfl, rfl⟩, by simp [HostController.handle, Quiet]⟩
  | ioCapabilityRequest addr | userConfirmationRequest addr => exact ⟨.refl host, hsend _ rfl⟩
  | other => exact ⟨.refl host, hnone⟩

/-! ## The course of the sequence -/

/-- The host knows what the answers said. -/
structure Known (host : HostController) (size : Option BufferSize) (address : Option BdAddr) :
    Prop where
  size : ∀ s, size = some s →
    (host.aclCredits, host.aclMtu) = (max s.totalPackets 1, max s.aclMaxLen 1)
  address : ∀ a, address = some a → host.address = a

/-- One command of the sequence is in flight, those before it are settled and
those after it pending, until the report. -/
inductive Course (config : HostConfig) (run : BringUp) : Prop
  | working (gone : List Command) (current : Command) (hstate : run.host.state = .initializing)
      (hsequence : gone ++ current :: run.host.pending = sequence config)
      (hleft : run.left = gone ++ [current]) (hsettled : run.settled = gone.map Command.opcode)
      (hflight : underWay run.host.commands = [current.opcode]) (hreports : run.reports = [])
      (hknown : Known run.host run.size run.address)
  | done (report : Report) (hstate : run.host.state = .ready) (hleft : run.left = sequence config)
      (hsettled : run.settled = sequenceOpcodes) (hflight : underWay run.host.commands = [])
      (hreports : run.reports = [report]) (hcarries : run.Carries report)
      (htold : AclAction.configure report.2.1.toNat report.2.2.toNat ∈ run.writer)

variable {config : HostConfig} {run : BringUp} {input : HostInput}
  {fed : HostController × List HostAction} {opcode : OpCode} {allowedPackets : UInt8}

theorem Course.sequential (h : Course config run) : Sequential config run := by
  cases h with
  | working gone current hstate hsequence hleft hsettled hflight hreports hknown =>
    refine ⟨?_, ⟨?_, ?_⟩, by simp [hreports], fun h => absurd hreports h, ?_, ?_⟩
    · rw [hleft, ← hsequence]
      exact ⟨run.host.pending, by simp⟩
    · rw [hsettled, ← HostController.map_opcode_sequence config, ← hsequence, map_append]
      exact prefix_append _ _
    · rw [hleft, hsettled, length_append, length_map]
      rfl
    all_goals
      intro report hreport
      rw [hreports] at hreport
      cases hreport
  | done report hstate hleft hsettled hflight hreports hcarries htold =>
    refine ⟨?_, ⟨?_, ?_⟩, by simp [hreports], fun _ => ⟨hleft, hsettled⟩, ?_, ?_⟩
    · rw [hleft]
    · rw [hsettled]
    · rw [hleft, hsettled]
      exact Nat.le_succ 13
    all_goals
      intro r hr
      rw [hreports, mem_singleton] at hr
      rwa [hr]

theorem course_quiet (h : Course config run) (hstate : fed.1.state = run.host.state)
    (hpending : fed.1.pending = run.host.pending)
    (hsame : run.host.state = .initializing → fed.1.address = run.host.address ∧
      fed.1.aclCredits = run.host.aclCredits ∧ fed.1.aclMtu = run.host.aclMtu)
    (hflight : underWay fed.1.commands = underWay run.host.commands)
    (hquiet : ∀ action ∈ fed.2, Quiet action)
    (hsettles : (run.host.settles input).filter ours = none)
    (hsize : sizeIn run.host input = none) (haddress : addressIn run.host input = none) :
    Course config (run.note input fed) := by
  have hleft : (run.note input fed).left = run.left := by
    rw [left, left, note, filter_append, filter_command_of_quiet hquiet, append_nil]
  have hreports : (run.note input fed).reports = run.reports := by
    rw [note, reports_of_quiet hquiet, append_nil]
  have hsettled : (run.note input fed).settled = run.settled := by
    rw [note, hsettles]
    exact append_nil _
  have hsize' : (run.note input fed).size = run.size := by rw [note, hsize, Option.none_or]
  have haddress' : (run.note input fed).address = run.address := by
    rw [note, haddress, Option.none_or]
  cases h with
  | working gone current hinit hsequence hleft' hsettled' hflight' hreports' hknown =>
    obtain ⟨ha, hc, hm⟩ := hsame hinit
    refine .working gone current (hstate.trans hinit) ?_ (hleft.trans hleft')
      (hsettled.trans hsettled') (hflight.trans hflight') (hreports.trans hreports') ?_
    · rw [note, hpending]
      exact hsequence
    rw [hsize', haddress']
    refine ⟨fun s hs => ?_, fun a hs => ha.trans (hknown.address a hs)⟩
    rw [note, hc, hm]
    exact hknown.size s hs
  | done report hready hleft' hsettled' hflight' hreports' hcarries htold =>
    refine .done report (hstate.trans hready) (hleft.trans hleft') (hsettled.trans hsettled')
      (hflight.trans hflight') (hreports.trans hreports') ?_ (mem_append_left _ htold)
    unfold Carries
    rw [hsize', haddress']
    exact hcarries

/-- The next command goes out at once, if there is a slot. -/
theorem advance_sends {next : Command} {rest : List Command}
    (hpending : host.pending = next :: rest) (hroom : 0 < host.commands.available) :
    host.advanceBringUp.1.pace host.advanceBringUp.2 =
      ({ host with
        pending := rest
        commands := { host.commands with
          available := host.commands.available - 1
          inFlight := host.commands.inFlight ++ [next.opcode] } }, [.send next]) := by
  have hslot : host.commands.available ≠ 0 := Nat.pos_iff_ne_zero.mp hroom
  simp [HostController.advanceBringUp, hpending, HostController.pace, HostController.paceFrom,
    CommandCredits.submit, hslot]

theorem advance_reports (hpending : host.pending = []) :
    host.advanceBringUp.1.pace host.advanceBringUp.2 =
      ({ host with state := .ready },
        [.ready host.address host.aclCredits host.aclMtu]) := by
  simp [HostController.advanceBringUp, hpending, HostController.pace, HostController.paceFrom]

theorem ours_sequence {command : Command} (h : command ∈ sequence config) :
    ours command.opcode = true := by
  refine decide_eq_true ?_
  rw [← HostController.map_opcode_sequence config]
  exact mem_map_of_mem h

/-- The command that is awaited is settled, and the next one leaves or the end
is reported. -/
theorem course_advanced (input : HostInput) (fed : HostController × List HostAction)
    {gone : List Command} {current : Command}
    (hsequence : gone ++ current :: run.host.pending = sequence config)
    (hleft : run.left = gone ++ [current]) (hsettled : run.settled = gone.map Command.opcode)
    (hreports : run.reports = []) (mid : HostController) (hstate : mid.state = .initializing)
    (hmid : mid.pending = run.host.pending) (hclear : Clear mid.commands)
    (hflight : underWay mid.commands = []) (hroom : mid.pending ≠ [] → 0 < mid.commands.available)
    {released : List Command} (hothers : ∀ c ∈ released, ours c.opcode = false)
    (hfed : fed = ((mid.advanceBringUp.1.pace mid.advanceBringUp.2).1,
      released.map .send ++ (mid.advanceBringUp.1.pace mid.advanceBringUp.2).2))
    (hsettles : (run.host.settles input).filter ours = some current.opcode)
    (hknown : Known mid (run.note input fed).size (run.note input fed).address)
    (hevent : mid.pending = [] → ∃ event, input = .event event) :
    Course config (run.note input fed) ∧ Clear fed.1.commands := by
  have hquiet : ∀ action ∈ released.map HostAction.send, Quiet action := by
    intro action haction
    obtain ⟨c, hc, rfl⟩ := mem_map.mp haction
    exact hothers c hc
  have hsettled' : (run.note input fed).settled = (gone ++ [current]).map Command.opcode := by
    rw [note, hsettles, hsettled, map_append]
    rfl
  have hsent (last : List HostAction) (hactions : fed.2 = released.map .send ++ last) :
      (run.note input fed).left = gone ++ [current] ++
          (last.filterMap HostAction.command?).filter (fun c => ours c.opcode) ∧
        (run.note input fed).reports = last.filterMap HostAction.report? := by
    rw [note, left, hreports, hactions, filterMap_append, filterMap_append,
      reports_of_quiet hquiet, filter_append, filter_append,
      filter_command_of_quiet hquiet, ← hleft]
    exact ⟨rfl, rfl⟩
  cases hpending : mid.pending with
  | cons next rest =>
    rw [hmid] at hpending
    rw [hpending] at hsequence
    have hslot := hroom (by simp [hmid, hpending])
    have hnone : mid.commands.waiting = [] := by
      by_contra hwaiting
      exact absurd (hclear.spent hwaiting) (Nat.pos_iff_ne_zero.mp hslot)
    have hnext : ours next.opcode = true := by
      have hmem : next ∈ sequence config := by simp [← hsequence]
      exact ours_sequence hmem
    rw [advance_sends (hmid.trans hpending) hslot] at hfed
    obtain ⟨hleft', hreports'⟩ := hsent [.send next] (by rw [hfed])
    refine ⟨.working (gone ++ [current]) next ?_ ?_ ?_ hsettled' ?_ hreports' ?_, ?_, ?_⟩
    · rw [note, hfed]
      exact hstate
    · rw [note, hfed, ← hsequence]
      simp
    · rw [hleft']
      simp [HostAction.command?, hnext]
    · rw [note, hfed, underWay, filter_append]
      rw [underWay] at hflight
      simp [hflight, hnext]
    · rw [note, hfed] at hknown ⊢
      exact ⟨hknown.size, hknown.address⟩
    · intro c hc
      rw [hfed] at hc
      simp [hnone] at hc
    · intro hwaiting
      rw [hfed] at hwaiting
      exact absurd hnone hwaiting
  | nil =>
    obtain ⟨event, rfl⟩ := hevent hpending
    rw [hmid] at hpending
    rw [hpending] at hsequence
    rw [advance_reports (hmid.trans hpending)] at hfed
    obtain ⟨hleft', hreports'⟩ :=
      hsent [.ready mid.address mid.aclCredits mid.aclMtu] (by rw [hfed])
    refine ⟨.done (mid.address, mid.aclCredits, mid.aclMtu) ?_ ?_ ?_ ?_ hreports' ?_ ?_, ?_⟩
    · rw [note, hfed]
    · rw [hleft', ← hsequence]
      simp [HostAction.command?]
    · rw [hsettled', hsequence, HostController.map_opcode_sequence]
    · rw [note, hfed]
      exact hflight
    · exact ⟨hknown.size, hknown.address⟩
    · rw [note, hfed]
      simp [toWriter, HostAction.forWriter]
    · rw [hfed]
      exact hclear

/-! ## One input -/

/-- What is kept from input to input. -/
structure Kept (config : HostConfig) (run : BringUp) : Prop where
  course : Course config run
  clear : Clear run.host.commands
  clock : run.host.unansweredFor < HostController.commandTimeout

/-- The host after what an answer says is kept. -/
def heard (host : HostController) : Event → HostController
  | .commandComplete _ opcode params => host.informed opcode params
  | _ => host

theorem informed_same (opcode : OpCode) (params : Bytes) :
    (host.informed opcode params).state = host.state ∧
      (host.informed opcode params).pending = host.pending ∧
      (host.informed opcode params).commands = host.commands ∧
      (host.informed opcode params).unansweredFor = host.unansweredFor := by
  unfold HostController.informed
  repeat' split
  all_goals exact ⟨rfl, rfl, rfl, rfl⟩

theorem heard_same (host : HostController) (event : Event) :
    (heard host event).state = host.state ∧ (heard host event).pending = host.pending ∧
      (heard host event).commands = host.commands ∧
      (heard host event).unansweredFor = host.unansweredFor := by
  cases event
  case commandComplete => exact informed_same _ _
  all_goals exact ⟨rfl, rfl, rfl, rfl⟩

/-- While it goes on, whatever answers a command moves the sequence. -/
theorem handle_answer (hanswer : event.answer? = some (opcode, allowedPackets)) :
    host.handle event =
      if host.state = .initializing then (heard host event).advanceBringUp
      else (heard host event, []) := by
  cases event
  case commandComplete allowed op params =>
    change host.onCommandComplete op params = _
    unfold HostController.onCommandComplete
    dsimp only
    rw [(informed_same op params).1]
    by_cases hstate : host.state = .initializing
    · rw [if_neg (not_not.mpr hstate), if_pos hstate]
      rfl
    · rw [if_pos hstate, if_neg hstate]
      rfl
  case commandStatus => rfl
  all_goals cases hanswer

theorem onEvent_answer (host : HostController)
    (hanswer : event.answer? = some (opcode, allowedPackets)) : host.onEvent event =
      ((((host.answered opcode allowedPackets).1.handle event).1.pace
          ((host.answered opcode allowedPackets).1.handle event).2).1,
        (host.answered opcode allowedPackets).2 ++
          (((host.answered opcode allowedPackets).1.handle event).1.pace
            ((host.answered opcode allowedPackets).1.handle event).2).2) := by
  rw [HostController.onEvent, hanswer]

theorem kept_of_unanswered (h : Kept config run) (hanswer : event.answer? = none) :
    Kept config (run.feed (.event event)) := by
  obtain ⟨haside, hquiet⟩ := handle_quiet run.host hanswer
  have hfed : run.host.feed (.event event) =
      (run.host.handle event).1.pace (run.host.handle event).2 := by
    rw [HostController.feed, HostController.onEvent, hanswer]
    rfl
  have hclear : Clear (run.host.handle event).1.commands := haside.commands ▸ h.clear
  obtain ⟨hflight, hclear', hquiet'⟩ := paceFrom_quiet hquiet hclear
  have hcourse : Course config (run.note (.event event) (run.host.feed (.event event))) := by
    rw [hfed]
    refine course_quiet h.course haside.state haside.pending
      (fun _ => ⟨haside.address, haside.aclCredits, haside.aclMtu⟩) ?_ hquiet' ?_ ?_ ?_
    · exact hflight.trans (by rw [haside.commands])
    · simp [HostController.settles, hanswer]
    · cases event <;> first | rfl | cases hanswer
    · cases event <;> first | rfl | cases hanswer
  refine ⟨hcourse, ?_, ?_⟩
  · rw [feed, note, hfed]
    exact hclear'
  · rw [feed, note, hfed]
    exact haside.unansweredFor ▸ h.clock

/-- The window after an answer: the command is no longer in flight, and what is
released is no part of the sequence. -/
theorem answered_window (hclear : Clear credits) (opcode : OpCode) (allowedPackets : UInt8) :
    underWay (credits.answered opcode allowedPackets).1 = (underWay credits).erase opcode ∧
      Clear (credits.answered opcode allowedPackets).1 ∧
      (∀ c ∈ (credits.answered opcode allowedPackets).2, ours c.opcode = false) ∧
      (credits.waiting.length < allowedPackets.toNat →
        0 < (credits.answered opcode allowedPackets).1.available) := by
  obtain ⟨hflight, hclear', hothers⟩ := release_quiet
    { credits with inFlight := credits.inFlight.erase opcode, available := allowedPackets.toNat }
    hclear.others
  refine ⟨hflight.trans List.erase_filter.symm, hclear', hothers, fun hroom => ?_⟩
  have hall := CommandCredits.releaseFrom_all (credits.inFlight.erase opcode)
    (Nat.le_of_lt hroom)
  rw [CommandCredits.answered, CommandCredits.release, hall]
  exact Nat.sub_pos_of_lt hroom

/-- Pacing what `advanceBringUp` leaves does not touch the clock. -/
theorem unansweredFor_advanced (host : HostController) :
    (host.advanceBringUp.1.pace host.advanceBringUp.2).1.unansweredFor = host.unansweredFor := by
  unfold HostController.advanceBringUp
  split <;> rfl

/-- The answer to the reading of the buffers or of the address is kept as it is
noted. -/
theorem known_heard {credits' : CommandCredits} (hknown : Known run.host run.size run.address)
    (hanswer : event.answer? = some (opcode, allowedPackets))
    (hflight : opcode ∈ run.host.commands.inFlight) :
    Known (heard { run.host with unansweredFor := 0, commands := credits' } event)
      ((sizeIn run.host (.event event)).or run.size)
      ((addressIn run.host (.event event)).or run.address) := by
  cases event
  case commandComplete allowed op params =>
    obtain ⟨rfl, -⟩ : op = opcode ∧ allowed = allowedPackets := by
      simpa [Event.answer?] using hanswer
    by_cases hsize : op = ⟨0x1005⟩
    · subst hsize
      simp only [heard, HostController.informed, sizeIn, addressIn, hflight, if_true, and_true,
        OpCode.mk.injEq]
      cases hparse : BufferSize.parse params with
      | none =>
        refine ⟨fun s hs => ?_, fun a ha => ?_⟩
        · exact hknown.size s (by simpa using hs)
        · exact hknown.address a (by simpa using ha)
      | some size =>
        refine ⟨fun s hs => ?_, fun a ha => ?_⟩
        · obtain rfl : size = s := by simpa using hs
          rfl
        · exact hknown.address a (by simpa using ha)
    · by_cases haddress : op = ⟨0x1009⟩
      · subst haddress
        simp only [heard, HostController.informed, sizeIn, addressIn, hflight, if_true, and_true,
          OpCode.mk.injEq]
        cases hparse : parseBdAddr params with
        | none =>
          refine ⟨fun s hs => ?_, fun a ha => ?_⟩
          · exact hknown.size s (by simpa using hs)
          · exact hknown.address a (by simpa using ha)
        | some address =>
          refine ⟨fun s hs => ?_, fun a ha => ?_⟩
          · exact hknown.size s (by simpa using hs)
          · simpa using ha
      · refine ⟨fun s hs => ?_, fun a ha => ?_⟩
        · simpa [heard, HostController.informed, hsize, haddress] using
            hknown.size s (by simpa [sizeIn, hsize] using hs)
        · simpa [heard, HostController.informed, hsize, haddress] using
            hknown.address a (by simpa [addressIn, haddress] using ha)
  case commandStatus => exact ⟨hknown.size, hknown.address⟩
  all_goals cases hanswer

theorem awaited_eq {gone : List Command} {current : Command}
    (hsequence : gone ++ current :: host.pending = sequence config) :
    host.awaited = some current.opcode := by
  have hlength : gone.length + (host.pending.length + 1) = 13 := by
    have h := congrArg List.length hsequence
    rwa [length_append, length_cons] at h
  have hindex : 12 - host.pending.length = gone.length := by omega
  rw [HostController.awaited, hindex, ← HostController.map_opcode_sequence config, ← hsequence]
  simp

/-- Nothing is noted of an answer that settles no command of the sequence. -/
theorem nothing_in (hanswer : event.answer? = some (opcode, allowedPackets))
    (hforeign : opcode ∈ host.commands.inFlight → ours opcode = false) :
    sizeIn host (.event event) = none ∧ addressIn host (.event event) = none := by
  cases event
  case commandComplete allowed op params =>
    obtain ⟨rfl, -⟩ : op = opcode ∧ allowed = allowedPackets := by
      simpa [Event.answer?] using hanswer
    constructor
    · refine if_neg fun hboth => ?_
      have hother := hforeign hboth.2
      rw [hboth.1] at hother
      cases hother
    · refine if_neg fun hboth => ?_
      have hother := hforeign hboth.2
      rw [hboth.1] at hother
      cases hother
  all_goals exact ⟨rfl, rfl⟩

theorem kept_of_answer (h : Kept config run)
    (hanswer : event.answer? = some (opcode, allowedPackets))
    (horderly : run.host.Orderly (.event event)) : Kept config (run.feed (.event event)) := by
  obtain ⟨hflight, hclear, hothers, hslots⟩ :=
    answered_window h.clear opcode allowedPackets
  have hevent := onEvent_answer run.host hanswer
  have hquiet : ∀ action ∈ (run.host.answered opcode allowedPackets).2, Quiet action := by
    intro action haction
    obtain ⟨c, hc, rfl⟩ := mem_map.mp haction
    exact hothers c hc
  cases h.course with
  | working gone current hstate hsequence hleft hsettled hcurrent hreports hknown =>
    obtain ⟨hawaited, hin, hroom⟩ := horderly hstate opcode allowedPackets hanswer
    rw [awaited_eq hsequence, Option.some.injEq] at hawaited
    obtain ⟨hs, hp, hc, hu⟩ := heard_same (run.host.answered opcode allowedPackets).1 event
    have hmid : (run.host.answered opcode allowedPackets).1.handle event =
        (heard (run.host.answered opcode allowedPackets).1 event).advanceBringUp :=
      (handle_answer hanswer).trans (if_pos hstate)
    rw [hmid] at hevent
    have hours : ours opcode = true := by
      rw [← hawaited]
      exact ours_sequence (show current ∈ sequence config by simp [← hsequence])
    have hsettles : (run.host.settles (.event event)).filter ours = some current.opcode := by
      simp [HostController.settles, hanswer, hin, hours, hawaited]
    obtain ⟨hcourse, hclear'⟩ := course_advanced (.event event)
      (run.host.onEvent event) hsequence hleft hsettled hreports
      (heard (run.host.answered opcode allowedPackets).1 event) (hs.trans hstate) hp
      (hc ▸ hclear) (by rw [hc]; exact hflight.trans (by rw [hcurrent, hawaited]; simp))
      (fun hpending => by
        rw [hc]
        rw [hp] at hpending
        exact hslots (hroom hpending))
      hothers hevent hsettles (known_heard hknown hanswer hin) (fun _ => ⟨event, rfl⟩)
    refine ⟨hcourse, hclear', ?_⟩
    change (run.host.onEvent event).1.unansweredFor < _
    rw [hevent]
    dsimp only
    rw [unansweredFor_advanced, hu]
    exact Nat.pos_of_ne_zero (by decide)
  | done report hstate hleft hsettled hcurrent hreports hcarries htold =>
    obtain ⟨hs, hp, hc, hu⟩ := heard_same (run.host.answered opcode allowedPackets).1 event
    have hnot : ¬ (run.host.answered opcode allowedPackets).1.state = .initializing := by
      change ¬ run.host.state = .initializing
      simp [hstate]
    rw [handle_answer hanswer, if_neg hnot] at hevent
    have hforeign : opcode ∈ run.host.commands.inFlight → ours opcode = false := by
      intro hin
      by_contra hours
      have hmem : opcode ∈ underWay run.host.commands :=
        mem_filter.mpr ⟨hin, by simpa using hours⟩
      rw [hcurrent] at hmem
      cases hmem
    have hcourse : Course config (run.note (.event event) (run.host.onEvent event)) := by
      rw [hevent]
      refine course_quiet h.course hs hp (fun hinit => by simp [hstate] at hinit) ?_ ?_ ?_ ?_ ?_
      · change underWay (heard (run.host.answered opcode allowedPackets).1 event).commands = _
        rw [hc, hcurrent]
        exact hflight.trans (by rw [hcurrent]; rfl)
      · simpa [HostController.pace, HostController.paceFrom] using hquiet
      · by_cases hin : opcode ∈ run.host.commands.inFlight
        · simp [HostController.settles, hanswer, hin, hforeign hin]
        · simp [HostController.settles, hanswer, hin]
      · exact (nothing_in hanswer hforeign).1
      · exact (nothing_in hanswer hforeign).2
    refine ⟨hcourse, ?_, ?_⟩
    · change Clear (run.host.onEvent event).1.commands
      rw [hevent]
      change Clear (heard (run.host.answered opcode allowedPackets).1 event).commands
      rw [hc]
      exact hclear
    · change (run.host.onEvent event).1.unansweredFor < _
      rw [hevent]
      change (heard (run.host.answered opcode allowedPackets).1 event).unansweredFor < _
      rw [hu]
      exact Nat.pos_of_ne_zero (by decide)

/-! ## The watchdog -/

variable {elapsed : ℕ}

/-- Before the watchdog runs out, a tick only counts. -/
theorem tick_waits (h : ¬ host.GivesUp elapsed) :
    host.tick elapsed = ({ host with
      unansweredFor := if host.commands.inFlight = [] then 0 else host.unansweredFor + elapsed },
      []) ∧ (host.tick elapsed).1.unansweredFor < HostController.commandTimeout := by
  unfold HostController.tick
  by_cases hnone : host.commands.inFlight = []
  · rw [if_pos hnone, if_pos hnone]
    exact ⟨rfl, Nat.pos_of_ne_zero (by decide)⟩
  · have hearly : host.unansweredFor + elapsed < HostController.commandTimeout := by
      by_contra hlate
      exact h ⟨hnone, Nat.not_lt.mp hlate⟩
    have hmax : HostController.commandTimeout ≤ HostController.durationMax := by decide
    have hmin : min (host.unansweredFor + elapsed) HostController.durationMax =
        host.unansweredFor + elapsed := Nat.min_eq_left (by omega)
    rw [if_neg hnone, if_neg hnone, hmin, if_pos hearly]
    exact ⟨rfl, hearly⟩

theorem tick_gives_up (h : host.GivesUp elapsed) : host.tick elapsed = host.abandon := by
  obtain ⟨hsome, hlate⟩ := h
  have hmax : HostController.commandTimeout ≤ HostController.durationMax := by decide
  have hmin : ¬ min (host.unansweredFor + elapsed) HostController.durationMax <
      HostController.commandTimeout := by omega
  rw [HostController.tick, if_neg hsome, if_neg hmin]

theorem abandoned_window (hclear : Clear credits) {rest : List OpCode}
    (hflight : credits.inFlight = opcode :: rest) :
    underWay credits.abandonOldest.1 = rest.filter ours ∧ Clear credits.abandonOldest.1 ∧
      (∀ c ∈ credits.abandonOldest.2.2, ours c.opcode = false) ∧
      (credits.waiting = [] → 0 < credits.abandonOldest.1.available) := by
  let left : CommandCredits :=
    { credits with inFlight := rest, available := max credits.available 1 }
  have hreleased : credits.abandonOldest = (left.release.1, some opcode, left.release.2) := by
    rw [CommandCredits.abandonOldest, hflight]
  rw [hreleased]
  obtain ⟨hunder, hclear', hothers⟩ := release_quiet left hclear.others
  refine ⟨hunder, hclear', hothers, fun hnone => ?_⟩
  simp [left, CommandCredits.release, CommandCredits.releaseFrom, hnone]

theorem kept_of_waiting (h : Kept config run) (hwaits : ¬ run.host.GivesUp elapsed) :
    Kept config (run.feed (.tick elapsed)) := by
  obtain ⟨htick, hclock⟩ := tick_waits hwaits
  have hcourse : Course config (run.note (.tick elapsed) (run.host.tick elapsed)) := by
    rw [htick]
    refine course_quiet h.course rfl rfl (fun _ => ⟨rfl, rfl, rfl⟩) rfl
      (fun _ haction => nomatch haction) ?_ rfl rfl
    simp [HostController.settles, hwaits]
  refine ⟨hcourse, ?_, hclock⟩
  change Clear (run.host.tick elapsed).1.commands
  rw [htick]
  exact h.clear

theorem kept_of_abandoned (h : Kept config run) (hgives : run.host.GivesUp elapsed)
    (horderly : run.host.Orderly (.tick elapsed)) : Kept config (run.feed (.tick elapsed)) := by
  obtain ⟨opcode, rest, hinFlight⟩ := exists_cons_of_ne_nil hgives.1
  obtain ⟨hflight, hclear, hothers, hslot⟩ := abandoned_window h.clear hinFlight
  have htick : run.host.feed (.tick elapsed) = run.host.abandon := tick_gives_up hgives
  cases h.course with
  | working gone current hstate hsequence hleft hsettled hcurrent hreports hknown =>
    obtain ⟨hawaited, hnone, hmore⟩ := horderly hstate hgives
    rw [awaited_eq hsequence, hinFlight, head?_cons, Option.some.injEq] at hawaited
    have hours : ours opcode = true := by
      rw [← hawaited]
      exact ours_sequence (show current ∈ sequence config by simp [← hsequence])
    have hrest : rest.filter ours = [] := by
      rw [underWay, hinFlight, filter_cons_of_pos hours] at hcurrent
      exact (cons.inj hcurrent).2
    have hsettles : (run.host.settles (.tick elapsed)).filter ours = some current.opcode := by
      simp [HostController.settles, hgives, hinFlight, hours, hawaited]
    have habandon : run.host.feed (.tick elapsed) = _ :=
      htick.trans (if_pos (show run.host.state = .initializing from hstate))
    obtain ⟨hcourse, hclear'⟩ := course_advanced (.tick elapsed)
      (run.host.feed (.tick elapsed)) hsequence hleft hsettled hreports
      { run.host with unansweredFor := 0, commands := run.host.commands.abandonOldest.1 }
      hstate rfl hclear (hflight.trans hrest) (fun _ => hslot hnone) hothers habandon hsettles
      ⟨hknown.size, hknown.address⟩ (fun hend => absurd hend hmore)
    refine ⟨hcourse, hclear', ?_⟩
    change (run.host.feed (.tick elapsed)).1.unansweredFor < _
    rw [habandon]
    dsimp only
    rw [unansweredFor_advanced]
    exact Nat.pos_of_ne_zero (by decide)
  | done report hstate hleft hsettled hcurrent hreports hcarries htold =>
    have habandon : run.host.feed (.tick elapsed) = _ :=
      htick.trans (if_neg (show ¬ run.host.state = .initializing by simp [hstate]))
    have hforeign : ours opcode = false := by
      by_contra hours
      rw [underWay, hinFlight, filter_cons_of_pos (by simpa using hours)] at hcurrent
      cases hcurrent
    have hrest : rest.filter ours = [] := by
      rwa [underWay, hinFlight, filter_cons_of_neg (by simp [hforeign])] at hcurrent
    have hcourse : Course config (run.note (.tick elapsed) (run.host.feed (.tick elapsed))) := by
      rw [habandon]
      refine course_quiet h.course rfl rfl (fun _ => ⟨rfl, rfl, rfl⟩)
        (hflight.trans (hrest.trans hcurrent.symm)) ?_ ?_ rfl rfl
      · intro action haction
        obtain ⟨c, hc, rfl⟩ := mem_map.mp haction
        exact hothers c hc
      · simp [HostController.settles, hgives, hinFlight, hforeign]
    refine ⟨hcourse, ?_, ?_⟩
    · change Clear (run.host.feed (.tick elapsed)).1.commands
      rw [habandon]
      exact hclear
    · change (run.host.feed (.tick elapsed)).1.unansweredFor < _
      rw [habandon]
      exact Nat.pos_of_ne_zero (by decide)

theorem kept_feed (h : Kept config run) (horderly : run.host.Orderly input) :
    Kept config (run.feed input) := by
  cases input with
  | event event =>
    cases hanswer : event.answer? with
    | none => exact kept_of_unanswered h hanswer
    | some answer => exact kept_of_answer h hanswer horderly
  | tick elapsed =>
    by_cases hgives : run.host.GivesUp elapsed
    · exact kept_of_abandoned h hgives horderly
    · exact kept_of_waiting h hgives

theorem kept_begin (config : HostConfig) (linkKeys : BdAddr → Option Hci.LinkKey) :
    Kept config (begin config linkKeys) := by
  refine ⟨.working [] .reset rfl rfl rfl rfl rfl rfl ⟨?_, ?_⟩, ⟨?_, ?_⟩,
    Nat.pos_of_ne_zero (by decide)⟩
  · exact fun s hs => nomatch hs
  · exact fun a ha => nomatch ha
  · exact fun c hc => nomatch hc
  · exact fun hwaiting => absurd rfl hwaiting

/-! ## The end -/

end BringUp

def HostInput.elapsed : HostInput → ℕ
  | event _ => 0
  | tick elapsed => elapsed

namespace BringUp

variable {config : HostConfig} {run : BringUp} {host : HostController}

def clock (schedule : ℕ → HostInput) : ℕ → ℕ
  | 0 => 0
  | n + 1 => clock schedule n + (schedule n).elapsed

/-- Every input either moves the sequence or has the watchdog count on. -/
structure Counts (before after : HostController) (elapsed : ℕ) : Prop where
  state : after.state = .initializing
  pending : after.pending = before.pending
  unansweredFor : after.unansweredFor = before.unansweredFor + elapsed

/-- The sequence has moved: it is shorter, or it is at its end. -/
def Moved (before after : HostController) : Prop :=
  after.state ≠ .initializing ∨ after.pending.length < before.pending.length

theorem moved_of_advance (mid : HostController) {after : HostController}
    (hmid : mid.pending = host.pending)
    (hafter : after = (mid.advanceBringUp.1.pace mid.advanceBringUp.2).1) : Moved host after := by
  rw [hafter]
  unfold HostController.advanceBringUp
  cases hpending : mid.pending with
  | nil => exact .inl (by simp [HostController.pace])
  | cons next rest =>
    refine .inr ?_
    rw [← hmid, hpending]
    exact Nat.lt_succ_self _

theorem moved_or_counts (h : Kept config run) (hstate : run.host.state = .initializing)
    (input : HostInput) :
    Moved run.host (run.feed input).host ∨ Counts run.host (run.feed input).host input.elapsed := by
  cases input with
  | event event =>
    cases hanswer : event.answer? with
    | none =>
      obtain ⟨haside, -⟩ := handle_quiet run.host hanswer
      have hfed : (run.feed (.event event)).host =
          ((run.host.handle event).1.pace (run.host.handle event).2).1 := by
        change (run.host.onEvent event).1 = _
        rw [HostController.onEvent, hanswer]
      rw [hfed]
      exact .inr ⟨haside.state.trans hstate, haside.pending, haside.unansweredFor⟩
    | some answer =>
      refine .inl (moved_of_advance
        (heard (run.host.answered answer.1 answer.2).1 event) ?_ ?_)
      · exact (heard_same _ event).2.1
      · have hhandle : (run.host.answered answer.1 answer.2).1.handle event =
            (heard (run.host.answered answer.1 answer.2).1 event).advanceBringUp :=
          (handle_answer hanswer).trans (if_pos hstate)
        change (run.host.onEvent event).1 = _
        rw [onEvent_answer run.host hanswer, hhandle]
  | tick elapsed =>
    by_cases hgives : run.host.GivesUp elapsed
    · refine .inl (moved_of_advance { run.host with
        unansweredFor := 0, commands := run.host.commands.abandonOldest.1 } rfl ?_)
      change (run.host.tick elapsed).1 = _
      rw [tick_gives_up hgives, HostController.abandon]
      dsimp only
      rw [if_pos hstate]
    · obtain ⟨htick, -⟩ := tick_waits hgives
      have hsome : run.host.commands.inFlight ≠ [] := by
        cases h.course with
        | working gone current _ _ _ _ hcurrent =>
          intro hnone
          rw [underWay, hnone] at hcurrent
          cases hcurrent
        | done report hready => simp [hready] at hstate
      refine .inr ?_
      change Counts run.host (run.host.tick elapsed).1 elapsed
      rw [htick, if_neg hsome]
      exact ⟨hstate, rfl, rfl⟩

/-- In a schedule of inputs that keep the order, the sequence does not stand
still for ever. -/
theorem exists_moved {schedule : ℕ → HostInput} {start : BringUp}
    (hkept : ∀ n, Kept config (after feed start schedule n))
    (htime : ∀ t, ∃ n, t ≤ clock schedule n) (n : ℕ)
    (hstate : (after feed start schedule n).host.state = .initializing) :
    ∃ m, Moved (after feed start schedule n).host (after feed start schedule m).host := by
  by_contra hstill
  rw [not_exists] at hstill
  -- without a move the watchdog counts all the time that passes
  have hcounts (d : ℕ) : (after feed start schedule (n + d)).host.state = .initializing ∧
      (after feed start schedule (n + d)).host.pending =
        (after feed start schedule n).host.pending ∧
      (after feed start schedule (n + d)).host.unansweredFor + clock schedule n =
        (after feed start schedule n).host.unansweredFor + clock schedule (n + d) := by
    induction d with
    | zero => exact ⟨hstate, rfl, rfl⟩
    | succ d ih =>
      obtain ⟨hs, hp, hu⟩ := ih
      have hnot := hstill (n + d + 1)
      rcases moved_or_counts (hkept (n + d)) hs (schedule (n + d)) with hmoved | hcount
      · refine absurd ?_ hnot
        rcases hmoved with hended | hshorter
        · exact .inl hended
        · exact .inr (hp ▸ hshorter)
      · refine ⟨hcount.state, hcount.pending.trans hp, ?_⟩
        have hnow := hcount.unansweredFor
        change (after feed start schedule (n + d + 1)).host.unansweredFor + _ =
          _ + (clock schedule (n + d) + (schedule (n + d)).elapsed)
        change (after feed start schedule (n + d + 1)).host.unansweredFor = _ at hnow
        omega
  obtain ⟨m, hm⟩ := htime (clock schedule n + HostController.commandTimeout)
  have hmono : ∀ d, clock schedule m ≤ clock schedule (m + d) := by
    intro d
    induction d with
    | zero => exact Nat.le_refl _
    | succ d ih => exact ih.trans (Nat.le_add_right _ _)
  have hlater : clock schedule m ≤ clock schedule (n + m) := by
    rw [Nat.add_comm]
    exact hmono n
  have hclock := (hkept (n + m)).clock
  have hsum := (hcounts m).2.2
  omega

theorem exists_report {schedule : ℕ → HostInput} {start : BringUp}
    (hkept : ∀ n, Kept config (after feed start schedule n))
    (htime : ∀ t, ∃ n, t ≤ clock schedule n) :
    ∃ n, (after feed start schedule n).host.state ≠ .initializing := by
  refine exists_after_of_rank (P := fun run : BringUp => run.host.state ≠ .initializing)
    (fun run => run.host.pending.length) (fun n hgoing => ?_) 0
  obtain ⟨m, hmoved⟩ := exists_moved hkept htime n (not_not.mp hgoing)
  exact ⟨m, hmoved⟩

/-- **The bring-up is sequential, and ends.**  In every run whose inputs keep
the order the commands leave one by one, and the end is reported once, with what
the answers said, to the writer too; and while time passes for ever the end is
reported. -/
theorem bring_up_sequential (config : HostConfig) (linkKeys : BdAddr → Option Hci.LinkKey) :
    (∀ inputs : List HostInput,
      Along feed (fun run input => run.host.Orderly input) inputs (begin config linkKeys) →
        ∀ k ≤ inputs.length,
          Sequential config ((inputs.take k).foldl feed (begin config linkKeys))) ∧
      ∀ schedule : ℕ → HostInput,
        (∀ n, (after feed (begin config linkKeys) schedule n).host.Orderly (schedule n)) →
          (∀ t, ∃ n, t ≤ clock schedule n) →
            ∃ n, (after feed (begin config linkKeys) schedule n).reports.length = 1 := by
  have hstart := kept_begin config linkKeys
  constructor
  · intro inputs horderly k hk
    have hbefore : Along feed (fun run input => run.host.Orderly input) (inputs.take k)
        (begin config linkKeys) := by
      rw [← take_append_drop k inputs] at horderly
      exact (along_append.mp horderly).1
    exact (hbefore.foldl (Kept config) hstart fun _ _ => kept_feed).course.sequential
  · intro schedule horderly htime
    have hkept : ∀ n, Kept config (after feed (begin config linkKeys) schedule n) := by
      intro n
      induction n with
      | zero => exact hstart
      | succ n ih => exact kept_feed ih (horderly n)
    obtain ⟨n, hended⟩ := exists_report hkept htime
    refine ⟨n, ?_⟩
    cases (hkept n).course with
    | working _ _ hstate => exact absurd hstate hended
    | done report _ _ _ _ hreports =>
      rw [hreports]
      rfl

def den : HostConfig := { name := "Den".toList }

/-- A controller that answers every command at once. -/
def obliging : List HostInput :=
  HostController.sequenceOpcodes.map fun opcode => .event (.commandComplete 1 opcode
    (if opcode = ⟨0x1005⟩ then [0, 0x53, 0x01, 0x40, 8, 0, 0, 0]
      else if opcode = ⟨0x1009⟩ then [0, 6, 5, 4, 3, 2, 1] else [0]))

/-- The same, with a tick a second for ever after. -/
def obligingForever (n : ℕ) : HostInput := obliging.getD n (.tick (10 ^ 9))

theorem bring_up_sequential_obliging :
    (∀ k ≤ obliging.length, Sequential den
        ((obliging.take k).foldl feed (begin den fun _ => none))) ∧
      ∃ n, (after feed (begin den fun _ => none)
        obligingForever n).reports.length = 1 := by
  have htail (d : ℕ) : obligingForever (13 + d) = .tick (10 ^ 9) :=
    by
    rw [obligingForever, getD_eq_getElem?_getD,
      getElem?_eq_none (show obliging.length ≤ 13 + d from Nat.le_add_right 13 d)]
    rfl
  have hready (d : ℕ) : (after feed (begin den fun _ => none)
      obligingForever (13 + d)).host.state = .ready := by
    induction d with
    | zero => decide +kernel
    | succ d ih =>
      refine Eq.trans ?_ ih
      change (HostController.feed _ (obligingForever (13 + d))).1.state = _
      rw [htail d]
      exact HostController.state_tick _ _ (ih ▸ by decide)
  refine ⟨(bring_up_sequential _ _).1 _ (by decide +kernel), (bring_up_sequential _ _).2 _ ?_ ?_⟩
  · intro n
    rcases Nat.lt_or_ge n 13 with hearly | hlate
    · revert n
      decide +kernel
    · obtain ⟨d, rfl⟩ := Nat.exists_eq_add_of_le hlate
      rw [htail d]
      exact fun hgoing => absurd ((hready d).symm.trans hgoing) (by decide)
  · intro t
    have hclock (d : ℕ) : d ≤ clock obligingForever (13 + d) := by
      induction d with
      | zero => exact Nat.zero_le _
      | succ d ih =>
        change d + 1 ≤ clock obligingForever (13 + d) + (obligingForever (13 + d)).elapsed
        rw [htail d]
        exact Nat.add_le_add ih (by decide)
    exact ⟨13 + t, hclock t⟩

/-- A status to no command, as a controller sends it to open its window: the
next command leaves while the reset is unanswered. -/
theorem unasked_status_advances :
    ¬ Sequential den
      (feed (begin den fun _ => none)
        (.event (.commandStatus 0 2 ⟨0⟩))) := by
  intro h
  exact absurd h.oneByOne.2 (by decide +kernel)

end BringUp

end Castaway.Bluetooth
