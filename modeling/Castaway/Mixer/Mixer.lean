import Mathlib.Data.List.Basic

/-!
# The mixer

Every source writes into an input of its own, and one thread takes what the
inputs have, sums it and hands it to the device.  A writer makes room first: a
source that can wait is parked, and one that cannot loses its oldest audio.  The
thread plans a pass from what the inputs had a moment ago, and then visits them
one after the other, each under its own lock.

Each section under a ring's lock is one step here, and so is each plan.  Samples
are values that can be added.  `Input.fed` and `Input.spent` record what was
written and what became of it, `Passing.given`, `Passing.short` and
`Passing.starved` what a pass was given and how short it fell, and `State.done`
and `State.wrote` what happened; the source keeps none of them.
-/

namespace Castaway.Mixer

/-! ## Constants -/

abbrev rate : ℕ := 48000

abbrev channels : ℕ := 2

def framesIn (nanos : ℕ) : ℕ := nanos * rate / 1000000000

def millis (n : ℕ) : ℕ := n * 1000000

/-- How far ahead of the speakers a source may run. -/
def lead : ℕ := framesIn (millis 250)

/-- The most audio that the mixer keeps queued at the device, and the least. -/
def deviceLead : ℕ := framesIn (millis 100)

def deviceFloor : ℕ := framesIn (millis 50)

def quantum : ℕ := framesIn (millis 10)

def liveBudget : ℕ := framesIn (millis 2000)

/-- How far past a declared target an input may run before it is trimmed. -/
def reclaimSlack : ℕ := framesIn (millis 250)

/-- How long an empty input still counts as between packets, in nanoseconds. -/
def staleAfter : ℕ := millis 250

/-! ## An input -/

/-- What a source does when the mix has no room for it. -/
inductive Backpressure where
  | pull
  | live
  deriving DecidableEq, Repr

/-- Whole frames of interleaved stereo, as a writer hands them over. -/
structure Block (α : Type*) where
  samples : List α
  whole : samples.length % channels = 0
  nonempty : samples ≠ []

def Block.frames {α : Type*} (block : Block α) : ℕ := block.samples.length / channels

structure Ring (α : Type*) where
  /-- When something last arrived, if anything ever did. -/
  lastFed : Option ℕ := none
  samples : List α := []
  closed : Bool := false

/-- What one input can put into a pass. -/
inductive Supply where
  | surface
  | flowing (frames : ℕ)
  | quiescent
  | tail (frames : ℕ)
  deriving DecidableEq, Repr

namespace Ring

variable {α : Type*} (ring : Ring α)

def frames : ℕ := ring.samples.length / channels

def supply (now : ℕ) : Supply :=
  if ring.closed then .tail ring.frames
  else match ring.lastFed with
    | none => .surface
    | some at_ =>
      if ring.frames = 0 ∧ now - at_ ≥ staleAfter then .quiescent else .flowing ring.frames

end Ring

/-- What became of some audio.  Mixed audio began at a slot of its pass. -/
inductive Fate where
  | mixed (slot : ℕ)
  | shed
  | reclaimed
  | flushed
  deriving DecidableEq, Repr

structure Spent (α : Type*) where
  fate : Fate
  samples : List α

structure Input (α : Type*) where
  backpressure : Backpressure := .pull
  ring : Ring α := {}
  /-- The sender's declared latency in nanoseconds, zero if it declared none. -/
  declared : ℕ := 0
  /-- The block that a parked writer holds. -/
  parked : Option (Block α) := none
  fed : List α := []
  spent : List (Spent α) := []

namespace Input

variable {α : Type*} (input : Input α)

/-- The declared target in frames, clamped to what can be honoured. -/
def declaredTarget : Option ℕ :=
  if 0 < input.declared then
    some (max deviceLead (min (framesIn input.declared) liveBudget))
  else none

/-- The target that a write is held to.  Only a live source has one. -/
def target : Option ℕ :=
  match input.backpressure with
  | .pull => none
  | .live => input.declaredTarget

def ceiling : ℕ :=
  match input.backpressure, input.target with
  | .pull, _ => lead
  | .live, none => liveBudget
  | .live, some target => min (target + reclaimSlack) liveBudget

def trim : ℕ :=
  match input.backpressure, input.target with
  | .pull, _ => lead
  | .live, none => liveBudget
  | .live, some target => target

def hasRoom (deviceInflight : ℕ) : Bool :=
  decide (input.ring.frames + deviceInflight < input.ceiling) || input.ring.closed

/-- The samples that a live write leaves in the ring. -/
def keep (deviceInflight : ℕ) (block : Block α) : ℕ :=
  (input.trim - deviceInflight - block.frames) * channels

/-- The samples that a live write cuts from the old end. -/
def cut (deviceInflight : ℕ) (block : Block α) : ℕ :=
  input.ring.samples.length - input.keep deviceInflight block

def makeRoom (deviceInflight : ℕ) (block : Block α) : Input α :=
  let cut := input.cut deviceInflight block
  if 0 < cut then
    { input with
      ring.samples := input.ring.samples.drop cut
      spent := input.spent ++
        [⟨if input.target.isSome then .reclaimed else .shed, input.ring.samples.take cut⟩] }
  else input

def append (block : Block α) (now : ℕ) : Input α :=
  { input with
    ring.samples := input.ring.samples ++ block.samples
    ring.lastFed := some now
    parked := none
    fed := input.fed ++ block.samples }

def flush : Input α :=
  { input with
    ring.samples := []
    spent := input.spent ++ [⟨.flushed, input.ring.samples⟩] }

def close : Input α := { input with ring.closed := true }

end Input

/-! ## The plan -/

/-- What one iteration of the drain loop should do. -/
inductive Pass where
  | sleep
  | take (frames : ℕ)
  | backstop
  deriving DecidableEq, Repr

def Supply.constraint : Supply → Option ℕ
  | .flowing frames => some frames
  | .tail frames => some frames
  | .surface => none
  | .quiescent => none

def plan (supplies : List Supply) (inflight : ℕ) : Pass :=
  let constraint := (supplies.filterMap Supply.constraint).min?
  let headroom := deviceLead - inflight
  let frames := min (min (constraint.getD 0) headroom) quantum
  if 0 < frames then .take frames
  else if inflight ≤ deviceFloor then .backstop
  else .sleep

/-! ## The device -/

/-- Where the mix goes.  A sink that cannot count reads the wall from its first
write. -/
structure Sink where
  counts : Bool := false
  submitted : ℕ := 0
  played : ℕ := 0
  deriving DecidableEq, Repr

namespace Sink

variable (sink : Sink)

def silent : Sink := {}

def inflight : ℕ := sink.submitted - sink.played

def submit (frames : ℕ) : Sink :=
  { sink with
    submitted := sink.submitted + frames
    played := if sink.submitted = 0 ∧ sink.counts = false then 0 else sink.played }

end Sink

/-! ## The mixer -/

structure Counters where
  starved : ℕ := 0
  idle : ℕ := 0
  written : ℕ := 0
  drained : ℕ := 0
  shed : ℕ := 0
  reclaimed : ℕ := 0
  dropped : ℕ := 0
  emitted : ℕ := 0
  deriving DecidableEq, Repr

/-- What one input gave to a pass, and the slot at which it began. -/
structure Given (α : Type*) where
  input : ℕ
  slot : ℕ
  samples : List α

/-- A pass: what was planned and with how much queued, and the inputs that it
has yet to visit.  `short` is by how much inputs that had audio fell short of
it, and `starved` what it added to the counter of that name. -/
structure Passing (α : Type*) where
  pass : Pass
  queued : ℕ
  frames : ℕ
  now : ℕ
  toVisit : List ℕ
  mixed : List α
  given : List (Given α) := []
  short : ℕ := 0
  starved : ℕ := 0

/-- Where the mixer's thread is. -/
inductive Stage (α : Type*) where
  | top
  | listed (inputs : List ℕ)
  | passing (p : Passing α)

structure State (α : Type*) where
  inputs : ℕ → Input α := fun _ => {}
  made : ℕ := 0
  /-- The inputs that are not retired yet. -/
  live : List ℕ := []
  counters : Counters := {}
  deviceInflight : ℕ := 0
  sink : Sink := {}
  stage : Stage α := .top
  done : List (Passing α) := []
  /-- The input that the step before wrote to. -/
  wrote : Option ℕ := none

/-- Add samples to the slots, the first to the first. -/
def pour {α : Type*} [Add α] : List α → List α → List α × List α
  | [], samples => ([], samples)
  | slot :: slots, [] => (slot :: (pour slots []).1, (pour slots []).2)
  | slot :: slots, sample :: samples =>
    ((slot + sample) :: (pour slots samples).1, (pour slots samples).2)

namespace State

variable {α : Type*} (s : State α)

def update (i : ℕ) (input : Input α) : State α :=
  { s with inputs := Function.update s.inputs i input }

def input (backpressure : Backpressure) : State α :=
  { s.update s.made { backpressure } with
    made := s.made + 1
    live := s.live ++ [s.made] }

/-- Whether the writer of an input can call it: it exists and is not parked. -/
def ready (i : ℕ) : Bool :=
  decide (i < s.made) && !(s.inputs i).ring.closed && (s.inputs i).parked.isNone

/-- The section of `MixInput::enqueue` under the ring's lock, for a block that
is new or that a parked writer holds. -/
def enqueue (i : ℕ) (block : Block α) (expired : Bool) (now : ℕ) : State α :=
  let input := s.inputs i
  if input.hasRoom s.deviceInflight then
    { s.update i (input.append block now) with
      counters.written := s.counters.written + block.frames
      wrote := some i }
  else match input.backpressure with
    | .live =>
      let cut := input.cut s.deviceInflight block / channels
      { s.update i ((input.makeRoom s.deviceInflight block).append block now) with
        counters.written := s.counters.written + block.frames
        counters.reclaimed := s.counters.reclaimed + (if input.target.isSome then cut else 0)
        counters.shed := s.counters.shed + (if input.target.isSome then 0 else cut)
        wrote := some i }
    | .pull =>
      if expired then
        { s.update i { input with parked := none } with
          counters.dropped := s.counters.dropped + block.frames }
      else s.update i { input with parked := some block }

/-- The inputs that are worth pulling from: neither closed and drained. -/
def liveInputs : List ℕ :=
  s.live.filter fun i => !(s.inputs i).ring.closed || !(s.inputs i).ring.samples.isEmpty

/-- The top of the loop.  With no inputs the thread parks. -/
def list : State α :=
  if s.liveInputs.isEmpty then { s with live := s.liveInputs, deviceInflight := 0 }
  else { s with live := s.liveInputs, stage := .listed s.liveInputs }

variable [Zero α]

def begin (inputs : List ℕ) (now : ℕ) (pass : Pass) : Stage α :=
  let passing (frames : ℕ) : Passing α :=
    { pass, queued := s.sink.inflight, frames, now, toVisit := inputs
      mixed := List.replicate (frames * channels) 0 }
  match pass with
  | .sleep => .top
  | .take frames => .passing (passing frames)
  | .backstop => .passing (passing quantum)

def planPass (inputs : List ℕ) (now : ℕ) : State α :=
  let supplies := inputs.map fun i => (s.inputs i).ring.supply now
  { s with
    deviceInflight := s.sink.inflight
    stage := s.begin inputs now (plan supplies s.sink.inflight) }

variable [Add α]

/-- Take what an input has, up to what the pass wants.  The shortfall leads. -/
def drain (p : Passing α) (i available : ℕ) (tail : Bool) : State α :=
  let input := s.inputs i
  let taken := min available p.frames
  let slot := p.frames * channels - taken * channels
  let poured := pour (p.mixed.drop slot) input.ring.samples
  let gave := input.ring.samples.take (input.ring.samples.length - poured.2.length)
  let short := p.frames - taken
  { s.update i
      { input with
        ring.samples := poured.2
        spent := input.spent ++ [⟨.mixed slot, gave⟩] } with
    counters.drained := s.counters.drained + taken
    counters.starved := s.counters.starved + (if tail then 0 else short)
    counters.idle := s.counters.idle + (if tail then short else 0)
    stage := .passing
      { p with
        mixed := p.mixed.take slot ++ poured.1
        given := p.given ++ [⟨i, slot, gave⟩]
        short := p.short + (if tail && available = 0 then 0 else short)
        starved := p.starved + (if tail then 0 else short) } }

/-- The section of `mix_pass` under one ring's lock. -/
def visit (p : Passing α) (i : ℕ) : State α :=
  match (s.inputs i).ring.supply p.now with
  | .surface => { s with stage := .passing p }
  | .quiescent =>
    { s with
      counters.idle := s.counters.idle + p.frames
      stage := .passing p }
  | .flowing available => s.drain p i available false
  | .tail available => s.drain p i available true

/-- Hand the pass to the device.  One that fails is replaced by silence. -/
def finish (p : Passing α) (ok : Bool) : State α :=
  let sink := if ok then s.sink.submit p.frames else .silent
  { s with
    counters.emitted := s.counters.emitted + p.frames
    sink
    deviceInflight := sink.inflight
    stage := .top
    done := s.done ++ [p] }

end State

/-- What can happen: the calls of the writers, the sections of the mixer's
thread, and the device that plays, comes and goes. -/
inductive Event (α : Type*) where
  | input (backpressure : Backpressure)
  | write (i : ℕ) (block : Block α) (now : ℕ)
  | wake (i : ℕ) (expired : Bool) (now : ℕ)
  | declare (i : ℕ) (latency : ℕ)
  | flush (i : ℕ)
  | close (i : ℕ)
  | list
  | opened (counts : Bool)
  | stalled
  | released
  | plan (now : ℕ)
  | visit
  | finish (ok : Bool)
  | play (frames : ℕ)

namespace State

variable {α : Type*} [Zero α] [Add α]

/-- One step, where the step can be taken. -/
def act (s : State α) : Event α → State α
  | .input backpressure => s.input backpressure
  | .write i block now => if s.ready i then s.enqueue i block false now else s
  | .wake i expired now =>
    match (s.inputs i).parked with
    | none => s
    | some block => s.enqueue i block expired now
  | .declare i latency =>
    if i < s.made then s.update i { s.inputs i with declared := latency } else s
  | .flush i => if s.ready i then s.update i (s.inputs i).flush else s
  | .close i => if s.ready i then s.update i (s.inputs i).close else s
  | .list =>
    match s.stage with
    | .top => s.list
    | _ => s
  | .opened counts =>
    match s.stage with
    | .listed _ => { s with sink := { counts } }
    | _ => s
  | .stalled =>
    match s.stage with
    | .listed _ => { s with sink := .silent, stage := .top }
    | _ => s
  | .released =>
    match s.stage with
    | .top => { s with sink := .silent }
    | _ => s
  | .plan now =>
    match s.stage with
    | .listed inputs => s.planPass inputs now
    | _ => s
  | .visit =>
    match s.stage with
    | .passing p =>
      match p.toVisit with
      | [] => s
      | i :: rest => s.visit { p with toVisit := rest } i
    | _ => s
  | .finish ok =>
    match s.stage with
    | .passing p => if p.toVisit.isEmpty then s.finish p ok else s
    | _ => s
  | .play frames => { s with sink.played := s.sink.played + frames }

def step (s : State α) (e : Event α) : State α := { s with wrote := none }.act e

end State

end Castaway.Mixer
