import Castaway.Mixer.Mixer
import Mathlib.Algebra.Order.BigOperators.Group.Finset
import Mathlib.Algebra.Order.Ring.Nat

/-!
# What became of the audio

What was written to an input is what became of it, piece by piece and in order,
followed by what its ring still holds (`Input.Kept`).  Summed over the inputs
this is an identity between the counters (`State.Ledger.balance`), but for the
audio that a flush throws away, which no counter sees.  A pass is the sum of
what the inputs gave to it (`Passing.Kept`).
-/

namespace Castaway.Mixer

open Function List

variable {α : Type*}

/-! ## One input -/

namespace Fate

def isMixed : Fate → Bool
  | .mixed _ => true
  | .shed => false
  | .reclaimed => false
  | .flushed => false

def isShed : Fate → Bool
  | .mixed _ => false
  | .shed => true
  | .reclaimed => false
  | .flushed => false

def isReclaimed : Fate → Bool
  | .mixed _ => false
  | .shed => false
  | .reclaimed => true
  | .flushed => false

def isFlushed : Fate → Bool
  | .mixed _ => false
  | .shed => false
  | .reclaimed => false
  | .flushed => true

end Fate

namespace Ring

variable {ring : Ring α} {now n : ℕ}

theorem frames_of_flowing (h : ring.supply now = .flowing n) : n = ring.frames := by
  rw [supply] at h
  split at h
  · cases h
  · split at h
    · cases h
    · split at h
      · cases h
      · exact (Supply.flowing.inj h).symm

theorem frames_of_tail (h : ring.supply now = .tail n) : n = ring.frames := by
  rw [supply] at h
  split at h
  · exact (Supply.tail.inj h).symm
  · split at h
    · cases h
    · split at h
      · cases h
      · cases h

theorem unfed_of_surface (h : ring.supply now = .surface) : ring.lastFed = none := by
  rw [supply] at h
  split at h
  · cases h
  · split at h
    · assumption
    · split at h
      · cases h
      · cases h

theorem empty_of_quiescent (h : ring.supply now = .quiescent) : ring.frames = 0 := by
  rw [supply] at h
  split at h
  · cases h
  · split at h
    · cases h
    · split at h
      · rename_i hstale
        exact hstale.1
      · cases h

/-- Whatever the kind of supply, it is what the ring holds. -/
theorem constraint_eq (h : (ring.supply now).constraint = some n) : n = ring.frames := by
  cases hsupply : ring.supply now with
  | surface | quiescent => simp [hsupply, Supply.constraint] at h
  | flowing frames =>
    rw [hsupply] at h
    rw [← frames_of_flowing hsupply]
    exact (Option.some.inj h).symm
  | tail frames =>
    rw [hsupply] at h
    rw [← frames_of_tail hsupply]
    exact (Option.some.inj h).symm

end Ring

/-- The frames of the pieces that met this fate. -/
def framesOf (kind : Fate → Bool) (spent : List (Spent α)) : ℕ :=
  ((spent.filter fun piece => kind piece.fate).map fun piece =>
    piece.samples.length / channels).sum

@[simp] theorem framesOf_nil (kind : Fate → Bool) : framesOf kind ([] : List (Spent α)) = 0 := rfl

@[simp] theorem framesOf_concat (kind : Fate → Bool) (spent : List (Spent α)) (piece : Spent α) :
    framesOf kind (spent ++ [piece]) =
      framesOf kind spent + if kind piece.fate then piece.samples.length / channels else 0 := by
  by_cases hkind : kind piece.fate = true <;> simp [framesOf, hkind]

/-- Whole pieces have as many frames as they have by their fates. -/
theorem length_flatMap_spent (spent : List (Spent α))
    (hspent : ∀ piece ∈ spent, piece.samples.length % channels = 0) :
    (spent.flatMap Spent.samples).length =
      (framesOf Fate.isMixed spent + framesOf Fate.isShed spent + framesOf Fate.isReclaimed spent +
        framesOf Fate.isFlushed spent) * channels := by
  induction spent using List.reverseRecOn with
  | nil => rfl
  | append_singleton spent piece ih =>
    have hbefore := ih fun piece' hmem => hspent piece' (mem_append_left _ hmem)
    have hwhole := hspent piece (mem_append_right _ (mem_singleton_self _))
    rw [flatMap_append, length_append, hbefore]
    simp only [framesOf_concat, flatMap_cons, flatMap_nil, append_nil]
    cases hfate : piece.fate <;>
      simp only [Fate.isMixed, Fate.isShed, Fate.isReclaimed, Fate.isFlushed,
        if_true, Bool.false_eq_true, if_false, channels] at hwhole ⊢ <;> omega

/-- What was written is what was spent and then what the ring holds, all of it
in whole frames, and what was mixed began on the left channel. -/
structure Input.Kept (input : Input α) : Prop where
  fed : input.fed = input.spent.flatMap Spent.samples ++ input.ring.samples
  spent : ∀ piece ∈ input.spent, piece.samples.length % channels = 0
  ring : input.ring.samples.length % channels = 0
  slots : ∀ piece ∈ input.spent, ∀ slot, piece.fate = .mixed slot → slot % channels = 0
  unfed : input.ring.lastFed = none → input.ring.samples = []

def Input.written (input : Input α) : ℕ := input.fed.length / channels

/-- What was written has been mixed, shed, reclaimed or flushed, or is in the
ring. -/
theorem Input.Kept.balance {input : Input α} (h : input.Kept) :
    input.written = framesOf Fate.isMixed input.spent + framesOf Fate.isShed input.spent +
      framesOf Fate.isReclaimed input.spent + framesOf Fate.isFlushed input.spent +
      input.ring.frames := by
  have hring := h.ring
  have hlength := length_flatMap_spent input.spent h.spent
  rw [Input.written, h.fed, length_append, hlength, Ring.frames]
  simp only [channels] at *
  omega

namespace Input

variable {input : Input α}

theorem kept_new (backpressure : Backpressure) : ({ backpressure } : Input α).Kept :=
  ⟨rfl, nofun, rfl, nofun, fun _ => rfl⟩

section

variable (h : input.Kept)
include h

/-- Letting the front of the ring go keeps the books. -/
theorem Kept.spend {input' : Input α} {fate : Fate} {gone rest : List α}
    (hring : input.ring.samples = gone ++ rest) (hgone : gone.length % channels = 0)
    (hslot : ∀ slot, fate = .mixed slot → slot % channels = 0) (hfed : input'.fed = input.fed)
    (hspent : input'.spent = input.spent ++ [⟨fate, gone⟩]) (hrest : input'.ring.samples = rest)
    (hlastFed : input'.ring.lastFed = input.ring.lastFed) : input'.Kept where
  fed := by
    rw [hfed, hspent, hrest, h.fed, hring]
    simp
  spent piece hpiece := by
    rw [hspent] at hpiece
    rcases mem_append.mp hpiece with hbefore | hnew
    · exact h.spent piece hbefore
    · rw [mem_singleton.mp hnew]
      exact hgone
  ring := by
    have hlength := h.ring
    rw [hring, length_append] at hlength
    rw [hrest]
    simp only [channels] at *
    omega
  slots piece hpiece slot hfate := by
    rw [hspent] at hpiece
    rcases mem_append.mp hpiece with hbefore | hnew
    · exact h.slots piece hbefore slot hfate
    · rw [mem_singleton.mp hnew] at hfate
      exact hslot slot hfate
  unfed hnone := by
    rw [hlastFed] at hnone
    rw [h.unfed hnone] at hring
    rw [hrest]
    exact (append_eq_nil_iff.mp hring.symm).2

theorem Kept.append (block : Block α) (now : ℕ) :
    (input.append block now).Kept where
  fed := by
    change input.fed ++ block.samples =
      input.spent.flatMap Spent.samples ++ (input.ring.samples ++ block.samples)
    rw [h.fed, append_assoc]
  spent := h.spent
  ring := by
    have hring := h.ring
    have hblock := block.whole
    change (input.ring.samples ++ block.samples).length % channels = 0
    rw [length_append]
    simp only [channels] at *
    omega
  slots := h.slots
  unfed := nofun

/-- What is cut off goes to the pieces that were spent. -/
theorem Kept.makeRoom (deviceInflight : ℕ) (block : Block α) :
    (input.makeRoom deviceInflight block).Kept := by
  rw [Input.makeRoom]
  dsimp only
  split
  · have hring := h.ring
    refine h.spend (take_append_drop _ _).symm ?_ ?_ rfl rfl rfl rfl
    · rw [length_take, Input.cut, Input.keep]
      simp only [channels] at *
      omega
    · intro slot
      split <;> exact nofun
  · exact h

theorem Kept.flush : input.flush.Kept :=
  h.spend (append_nil _).symm h.ring (fun _ hfate => Fate.noConfusion hfate) rfl rfl rfl rfl

theorem Kept.close : input.close.Kept :=
  ⟨h.fed, h.spent, h.ring, h.slots, h.unfed⟩

theorem frames_makeRoom (deviceInflight : ℕ) (block : Block α) :
    (input.makeRoom deviceInflight block).ring.frames =
      min input.ring.frames (input.trim - deviceInflight - block.frames) := by
  have hring := h.ring
  rw [Input.makeRoom]
  dsimp only
  split
  · rename_i hcut
    rw [Input.cut, Input.keep] at hcut
    dsimp only [Ring.frames]
    rw [length_drop, Input.cut, Input.keep]
    simp only [channels] at *
    omega
  · rename_i hcut
    rw [Input.cut, Input.keep] at hcut
    dsimp only [Ring.frames]
    simp only [channels] at *
    omega

theorem frames_append (block : Block α) (now : ℕ) :
    (input.append block now).ring.frames = input.ring.frames + block.frames := by
  have hring := h.ring
  have hblock := block.whole
  change (input.ring.samples ++ block.samples).length / channels = _
  rw [length_append, Ring.frames, Block.frames]
  simp only [channels] at *
  omega

theorem written_append (block : Block α) (now : ℕ) :
    (input.append block now).written = input.written + block.frames := by
  have hring := h.ring
  have hblock := block.whole
  have hlength := length_flatMap_spent input.spent h.spent
  change (input.fed ++ block.samples).length / channels = _
  rw [length_append, Input.written, Block.frames, h.fed, length_append, hlength]
  simp only [channels] at *
  omega

end

/-- What is cut goes into one book or the other. -/
theorem framesOf_makeRoom (kind : Fate → Bool) (deviceInflight : ℕ) (block : Block α) :
    framesOf kind (input.makeRoom deviceInflight block).spent = framesOf kind input.spent +
      if kind (if input.target.isSome then .reclaimed else .shed) then
        input.cut deviceInflight block / channels else 0 := by
  rw [Input.makeRoom]
  dsimp only
  split
  · have hlength : (input.ring.samples.take (input.cut deviceInflight block)).length =
        input.cut deviceInflight block := by
      rw [length_take, Input.cut]
      omega
    rw [framesOf_concat, hlength]
  · rename_i hcut
    have hzero : input.cut deviceInflight block / channels = 0 := by
      rw [Nat.eq_zero_of_not_pos hcut]
      rfl
    rw [hzero]
    simp

theorem frames_append_pos (h : input.Kept) (block : Block α) (now : ℕ) :
    0 < (input.append block now).ring.frames := by
  have hblock := block.whole
  have hpos : 0 < block.samples.length := length_pos_of_ne_nil block.nonempty
  rw [frames_append h, Block.frames]
  simp only [channels] at *
  omega

theorem ceiling_makeRoom (input : Input α) (deviceInflight : ℕ) (block : Block α) :
    (input.makeRoom deviceInflight block).ceiling = input.ceiling := by
  rw [Input.makeRoom]
  dsimp only
  split <;> rfl

end Input

/-! ## All inputs -/

namespace State

variable {s : State α}

def total (s : State α) (f : Input α → ℕ) : ℕ := ∑ i ∈ Finset.range s.made, f (s.inputs i)

/-- A change to one input changes the sum by as much. -/
theorem total_update (f : Input α → ℕ) {i : ℕ} (hi : i < s.made) (input : Input α) :
    (s.update i input).total f + f (s.inputs i) = s.total f + f input := by
  have hmem : i ∈ Finset.range s.made := Finset.mem_range.mpr hi
  have hrest : ∑ j ∈ (Finset.range s.made).erase i, f (Function.update s.inputs i input j) =
      ∑ j ∈ (Finset.range s.made).erase i, f (s.inputs j) :=
    Finset.sum_congr rfl fun j hj => by rw [update_of_ne (Finset.ne_of_mem_erase hj)]
  have hafter : (s.update i input).total f =
      f input + ∑ j ∈ (Finset.range s.made).erase i, f (s.inputs j) := by
    change ∑ j ∈ Finset.range s.made, f (Function.update s.inputs i input j) = _
    rw [← Finset.add_sum_erase _ _ hmem, hrest, update_self]
  have hbefore : s.total f = f (s.inputs i) + ∑ j ∈ (Finset.range s.made).erase i, f (s.inputs j) :=
    (Finset.add_sum_erase _ _ hmem).symm
  rw [hafter, hbefore]
  omega

/-- A new input adds nothing that it does not have. -/
theorem total_input (f : Input α → ℕ) (backpressure : Backpressure)
    (hnew : f { backpressure } = 0) : (s.input backpressure).total f = s.total f := by
  change ∑ j ∈ Finset.range (s.made + 1), f (Function.update s.inputs s.made _ j) = _
  rw [Finset.sum_range_succ, update_self, hnew, Nat.add_zero]
  refine Finset.sum_congr rfl fun j hj => ?_
  rw [update_of_ne (Nat.ne_of_lt (Finset.mem_range.mp hj))]

/-- The counters are what the inputs add up to, and the inputs keep their books.
-/
structure Ledger (s : State α) : Prop where
  kept : ∀ i, (s.inputs i).Kept
  written : s.counters.written = s.total Input.written
  drained : s.counters.drained = s.total fun input => framesOf Fate.isMixed input.spent
  shed : s.counters.shed = s.total fun input => framesOf Fate.isShed input.spent
  reclaimed : s.counters.reclaimed = s.total fun input => framesOf Fate.isReclaimed input.spent

/-- The frames that flushes threw away, and those that are still in the rings.
-/
def flushed (s : State α) : ℕ := s.total fun input => framesOf Fate.isFlushed input.spent

def inRings (s : State α) : ℕ := s.total fun input => input.ring.frames

/-- **The identity between the counters**, up to what was flushed. -/
theorem Ledger.balance (h : Ledger s) : s.counters.written =
    s.counters.drained + s.counters.shed + s.counters.reclaimed + s.flushed + s.inRings := by
  rw [h.written, h.drained, h.shed, h.reclaimed, flushed, inRings]
  simp only [total, ← Finset.sum_add_distrib]
  exact Finset.sum_congr rfl fun i _ => (h.kept i).balance

/-- A step at one input is entered if it moves the counters as it moves that
input. -/
theorem Ledger.update (h : Ledger s) {s' : State α} {i : ℕ} (hi : i < s.made) {input : Input α}
    (hinputs : s'.inputs = (s.update i input).inputs) (hmade : s'.made = s.made)
    (hkept : input.Kept)
    (hwritten : s'.counters.written + (s.inputs i).written = s.counters.written + input.written)
    (hdrained : s'.counters.drained + framesOf Fate.isMixed (s.inputs i).spent =
      s.counters.drained + framesOf Fate.isMixed input.spent)
    (hshed : s'.counters.shed + framesOf Fate.isShed (s.inputs i).spent =
      s.counters.shed + framesOf Fate.isShed input.spent)
    (hreclaimed : s'.counters.reclaimed + framesOf Fate.isReclaimed (s.inputs i).spent =
      s.counters.reclaimed + framesOf Fate.isReclaimed input.spent) : Ledger s' := by
  have htotal (f : Input α → ℕ) : s'.total f = (s.update i input).total f := by
    rw [total, total, hinputs, hmade]
    rfl
  refine ⟨fun j => ?_, ?_, ?_, ?_, ?_⟩
  · rw [hinputs]
    change Input.Kept (Function.update s.inputs i input j)
    by_cases hj : j = i
    · rw [hj, update_self]
      exact hkept
    · rw [update_of_ne hj]
      exact h.kept j
  · have hupdate := total_update (s := s) Input.written hi input
    rw [htotal]
    have hbefore := h.written
    omega
  · have hupdate := total_update (s := s) (fun input => framesOf Fate.isMixed input.spent) hi input
    rw [htotal]
    have hbefore := h.drained
    omega
  · have hupdate := total_update (s := s) (fun input => framesOf Fate.isShed input.spent) hi input
    rw [htotal]
    have hbefore := h.shed
    omega
  · have hupdate :=
      total_update (s := s) (fun input => framesOf Fate.isReclaimed input.spent) hi input
    rw [htotal]
    have hbefore := h.reclaimed
    omega

theorem Ledger.congr (h : Ledger s) {s' : State α} (hinputs : s'.inputs = s.inputs)
    (hmade : s'.made = s.made) (hwritten : s'.counters.written = s.counters.written)
    (hdrained : s'.counters.drained = s.counters.drained)
    (hshed : s'.counters.shed = s.counters.shed)
    (hreclaimed : s'.counters.reclaimed = s.counters.reclaimed) : Ledger s' := by
  have htotal (f : Input α → ℕ) : s'.total f = s.total f := by rw [total, total, hinputs, hmade]
  refine ⟨fun j => hinputs ▸ h.kept j, ?_, ?_, ?_, ?_⟩
  · rw [hwritten, htotal, h.written]
  · rw [hdrained, htotal, h.drained]
  · rw [hshed, htotal, h.shed]
  · rw [hreclaimed, htotal, h.reclaimed]

theorem Ledger.input (h : Ledger s) (backpressure : Backpressure) :
    Ledger (s.input backpressure) := by
  refine ⟨fun j => ?_, ?_, ?_, ?_, ?_⟩
  · change Input.Kept (Function.update s.inputs s.made _ j)
    by_cases hj : j = s.made
    · rw [hj, update_self]
      exact Input.kept_new backpressure
    · rw [update_of_ne hj]
      exact h.kept j
  · exact h.written.trans (total_input _ backpressure (Nat.zero_div channels)).symm
  · exact h.drained.trans (total_input _ backpressure rfl).symm
  · exact h.shed.trans (total_input _ backpressure rfl).symm
  · exact h.reclaimed.trans (total_input _ backpressure rfl).symm

end State

/-! ## Passes -/

section Passes

variable [Add α]

/-- Pouring adds to every slot as far as there are samples for it, and leaves
the rest. -/
theorem pour_eq {slots samples : List α} (h : slots.length ≤ samples.length) :
    pour slots samples = (List.zipWith (· + ·) slots (samples.take slots.length),
      samples.drop slots.length) := by
  induction slots generalizing samples with
  | nil => rfl
  | cons slot slots ih =>
    cases samples with
    | nil => exact absurd h (Nat.not_succ_le_zero _)
    | cons sample samples =>
      rw [pour, ih (Nat.le_of_succ_le_succ h)]
      rfl

def addAt (mixed : List α) (given : Given α) : List α :=
  mixed.take given.slot ++ List.zipWith (· + ·) (mixed.drop given.slot) given.samples

/-- A pass after one input gave to it, and fell short by some frames. -/
def Passing.after (p : Passing α) (rest : List ℕ) (given : Given α) (short starved : ℕ) :
    Passing α :=
  { p with
    toVisit := rest
    mixed := addAt p.mixed given
    given := p.given ++ [given]
    short := p.short + short
    starved := p.starved + starved }

/-- A pass is the sum of what it was given: whole frames that end where the pass
ends, one piece of each input.  A backstop was planned at the floor, and no pass
overfills the device. -/
structure Passing.Kept [Zero α] (p : Passing α) : Prop where
  length : p.mixed.length = p.frames * channels
  summed : p.mixed = p.given.foldl addAt (List.replicate (p.frames * channels) 0)
  once : (p.given.map Given.input ++ p.toVisit).Nodup
  whole : ∀ given ∈ p.given, given.slot % channels = 0 ∧ given.samples.length % channels = 0 ∧
    given.slot + given.samples.length = p.frames * channels
  backstop : p.pass = .backstop → p.queued ≤ deviceFloor
  bound : p.queued + p.frames ≤ deviceLead

theorem length_addAt {mixed : List α} {given : Given α}
    (h : given.slot + given.samples.length = mixed.length) :
    (addAt mixed given).length = mixed.length := by
  rw [addAt, length_append, length_take, length_zipWith, length_drop]
  omega

/-- A pass that is given the audio of the next input. -/
theorem Passing.Kept.after [Zero α] {p : Passing α} {rest : List ℕ} {given : Given α}
    (h : p.Kept) (hvisit : p.toVisit = given.input :: rest) (hslot : given.slot % channels = 0)
    (hwhole : given.samples.length % channels = 0)
    (hend : given.slot + given.samples.length = p.frames * channels) (short starved : ℕ) :
    (p.after rest given short starved).Kept where
  length := (length_addAt (hend.trans h.length.symm)).trans h.length
  summed := by
    rw [Passing.after, foldl_concat, ← h.summed]
  once := by
    have honce := h.once
    rw [hvisit] at honce
    rw [Passing.after, map_append, append_assoc]
    exact honce
  whole given' hmem := by
    rcases mem_append.mp hmem with hbefore | hnew
    · exact h.whole given' hbefore
    · rw [mem_singleton.mp hnew]
      exact ⟨hslot, hwhole, hend⟩
  backstop := h.backstop
  bound := h.bound

theorem Passing.Kept.passed [Zero α] {p p' : Passing α} {i : ℕ} (h : p.Kept)
    (hvisit : p.toVisit = i :: p'.toVisit)
    (hsame : p' = { p with toVisit := p'.toVisit }) : p'.Kept := by
  have honce := h.once
  rw [hvisit] at honce
  rw [hsame]
  refine ⟨h.length, h.summed, ?_, h.whole, h.backstop, h.bound⟩
  exact honce.sublist (List.Sublist.append_left (sublist_cons_self _ _) _)

end Passes

/-- What one input gave to the pass. -/
def Passing.givenBy (p : Passing α) (i : ℕ) : List (ℕ × List α) :=
  p.given.filterMap fun given => if given.input = i then some (given.slot, given.samples) else none

theorem Passing.givenBy_after [Add α] (p : Passing α) (rest : List ℕ) (given : Given α)
    (short starved j : ℕ) : (p.after rest given short starved).givenBy j = p.givenBy j ++
      if given.input = j then [(given.slot, given.samples)] else [] := by
  rw [Passing.givenBy, Passing.givenBy, Passing.after, filterMap_append]
  split <;> simp_all

def Spent.chunk (piece : Spent α) : Option (ℕ × List α) :=
  match piece.fate with
  | .mixed slot => some (slot, piece.samples)
  | .shed => none
  | .reclaimed => none
  | .flushed => none

theorem Input.chunks_makeRoom (input : Input α) (deviceInflight : ℕ) (block : Block α) :
    (input.makeRoom deviceInflight block).spent.filterMap Spent.chunk =
      input.spent.filterMap Spent.chunk := by
  rw [Input.makeRoom]
  dsimp only
  split
  · rw [filterMap_append]
    split <;> simp [Spent.chunk]
  · rfl

def Stage.current : Stage α → List (Passing α)
  | .top => []
  | .listed _ => []
  | .passing p => [p]

namespace State

variable {s : State α}

/-- The passes that are done, and the one under way. -/
def passes (s : State α) : List (Passing α) := s.done ++ s.stage.current

theorem passes_passing {p : Passing α} (h : s.stage = .passing p) : s.passes = s.done ++ [p] := by
  rw [passes, h]
  rfl

end State

end Castaway.Mixer
