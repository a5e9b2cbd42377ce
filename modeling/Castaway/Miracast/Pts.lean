import Mathlib.Algebra.Order.Ring.Nat
import Mathlib.Data.List.Basic

/-!
# Presentation times of a Miracast stream

`PtsOrigin` of `ts.rs`: the 33-bit stamps of each elementary stream are extended
past the rollovers of its counter, and what comes out is measured from the first
stamp of all.  A stream's rollover is a step back by more than half the
counter's range; a step back by more than two seconds of what all the streams
take turns to supply is the source having restarted its clock.

## Strategy

The streams are stamped from one clock that does not roll over, the `time` of a
`Stamp`, of which the code sees the low 33 bits.  `Aligned` says what the state
is after some stamps: each stream's counter and turns are those of its last
stamp, counted from the turn of the first stamp of all.  One stamp keeps that
and resolves to the time elapsed (`Aligned.resolve`), as long as the code's
reading of the step is the right one.  `Tracked` lists what that takes; the
first two items fail for a frame reordered back across a rollover and for a
stream that joins on another turn, and `reordered_across_wrap` is such a run.
-/

namespace Castaway.Miracast

open Function List

/-! ## Sixty-four bits -/

def u64Max : ℕ := 2 ^ 64 - 1

def saturatingAdd (a b : ℕ) : ℕ := min (a + b) u64Max

def saturatingMul (a b : ℕ) : ℕ := min (a * b) u64Max

theorem saturatingAdd_eq {a b : ℕ} (h : a + b ≤ u64Max) : saturatingAdd a b = a + b :=
  Nat.min_eq_left h

theorem saturatingMul_eq {a b : ℕ} (h : a * b ≤ u64Max) : saturatingMul a b = a * b :=
  Nat.min_eq_left h

/-! ## One elementary stream -/

abbrev Pid := UInt16

def ptsHz : ℕ := 90000

def ptsModulus : ℕ := 2 ^ 33

def ptsWrapThreshold : ℕ := ptsModulus / 2

/-- A backwards step larger than this, but smaller than a wrap, is a restart. -/
def ptsRestartThreshold : ℕ := 2 * ptsHz

/-- One elementary stream's counter, extended to a monotone one. -/
structure StreamTicks where
  previous : ℕ := 0
  wraps : ℕ := 0
  deriving DecidableEq

/-- Whether the step from `previous` to `pts` is read as the counter wrapping.
-/
def wrapRead (previous pts : ℕ) : Prop := previous > pts ∧ previous - pts > ptsWrapThreshold

instance (previous pts : ℕ) : Decidable (wrapRead previous pts) :=
  inferInstanceAs (Decidable (_ ∧ _))

/-- Extend a raw stamp past this stream's rollovers. -/
def StreamTicks.extend (ticks : StreamTicks) (pts : ℕ) : ℕ × StreamTicks :=
  let wraps := if wrapRead ticks.previous pts then saturatingAdd ticks.wraps 1 else ticks.wraps
  (saturatingAdd pts (saturatingMul wraps ptsModulus), ⟨pts, wraps⟩)

/-! ## The origin the streams share -/

/-- The first and the previous extended stamp, what was elapsed before the most
recent restart, and each stream's own wrap state. -/
structure PtsOrigin where
  first : Option ℕ := none
  previous : ℕ := 0
  carried : ℕ := 0
  ticks : Pid → StreamTicks := fun _ => {}

namespace PtsOrigin

/-- The duration of `ticks`, in nanoseconds. -/
def nanos (ticks : ℕ) : ℕ := saturatingMul ticks 1000000000 / ptsHz

/-- Convert stream `pid`'s raw stamp to the time since the first one, in
nanoseconds. -/
def resolve (origin : PtsOrigin) (pid : Pid) (pts : ℕ) : ℕ × PtsOrigin :=
  let (extended, ticks) := (origin.ticks pid).extend pts
  let first := origin.first.getD extended
  if origin.previous > extended ∧ origin.previous - extended > ptsRestartThreshold then
    -- The source restarted its clock: bank what has elapsed and measure from here.
    let carried := saturatingAdd origin.carried (origin.previous - first)
    let (extended, ticks) := StreamTicks.extend {} pts
    (nanos (saturatingAdd carried (extended - extended)),
      { first := some extended
        previous := extended
        carried := carried
        ticks := update (fun _ => {}) pid ticks })
  else
    (nanos (saturatingAdd origin.carried (extended - first)),
      { origin with
        first := some first
        previous := extended
        ticks := update origin.ticks pid ticks })

end PtsOrigin

/-! ## Runs over one clock -/

/-- A stamp of stream `pid`, at a time on the clock all the streams share. -/
structure Stamp where
  pid : Pid
  time : ℕ
  deriving DecidableEq

namespace Stamp

def raw (stamp : Stamp) : ℕ := stamp.time % ptsModulus

/-- How often the 33-bit counter had rolled over. -/
def turn (stamp : Stamp) : ℕ := stamp.time / ptsModulus

theorem raw_add_turn (stamp : Stamp) : stamp.raw + stamp.turn * ptsModulus = stamp.time := by
  rw [raw, turn, Nat.mul_comm]
  exact Nat.mod_add_div _ _

end Stamp

def resolveAll (origin : PtsOrigin) : List Stamp → List ℕ
  | [] => []
  | stamp :: rest =>
    (origin.resolve stamp.pid stamp.raw).1 ::
      resolveAll (origin.resolve stamp.pid stamp.raw).2 rest

/-- The time of a stamp since the first one, floored at zero, in nanoseconds. -/
def elapsed (first stamp : Stamp) : ℕ := (stamp.time - first.time) * 1000000000 / ptsHz

/-- What the stamps should resolve to. -/
def elapsedAll : List Stamp → List ℕ
  | [] => []
  | first :: rest => (first :: rest).map (elapsed first)

/-- Stamps in decode order, the streams multiplexed: none is two seconds or more
behind any before it. -/
def Multiplexed (stamps : List Stamp) : Prop :=
  stamps.Pairwise fun before after => before.time < after.time + 2 * ptsHz

instance (stamps : List Stamp) : Decidable (Multiplexed stamps) :=
  inferInstanceAs (Decidable (stamps.Pairwise _))

def lastOf (pid : Pid) (before : List Stamp) : Option Stamp :=
  (before.filter fun stamp => stamp.pid = pid).getLast?

/-- What the code relies on of the stamp that follows `before`. -/
structure Tracked (before : List Stamp) (stamp : Stamp) : Prop where
  /-- The step from the stream's last stamp is read as what its counter did. -/
  turn : ∀ last ∈ lastOf stamp.pid before,
    stamp.turn = last.turn + if wrapRead last.raw stamp.raw then 1 else 0
  /-- A stream joins on the turn of the first stamp. -/
  joins : lastOf stamp.pid before = none → ∀ first ∈ before.head?, stamp.turn = first.turn
  /-- The stamp is no more than two seconds behind the one before it. -/
  step : ∀ last ∈ before.getLast?, last.time ≤ stamp.time + ptsRestartThreshold
  /-- The time elapsed counts in nanoseconds as far as sixty-four bits go. -/
  span : ∀ first ∈ before.head?, (stamp.time - first.time) * 1000000000 ≤ u64Max

instance (before : List Stamp) (stamp : Stamp) : Decidable (Tracked before stamp) :=
  decidable_of_iff
    ((∀ last ∈ lastOf stamp.pid before,
        stamp.turn = last.turn + if wrapRead last.raw stamp.raw then 1 else 0) ∧
      (lastOf stamp.pid before = none → ∀ first ∈ before.head?, stamp.turn = first.turn) ∧
      (∀ last ∈ before.getLast?, last.time ≤ stamp.time + ptsRestartThreshold) ∧
      ∀ first ∈ before.head?, (stamp.time - first.time) * 1000000000 ≤ u64Max)
    ⟨fun h => ⟨h.1, h.2.1, h.2.2.1, h.2.2.2⟩, fun h => ⟨h.turn, h.joins, h.step, h.span⟩⟩

/-- Every stamp of a run can be tracked after those before it. -/
def TrackedRun (before : List Stamp) : List Stamp → Prop
  | [] => True
  | stamp :: rest => Tracked before stamp ∧ TrackedRun (before ++ [stamp]) rest

instance decidableTrackedRun : (before stamps : List Stamp) → Decidable (TrackedRun before stamps)
  | _, [] => inferInstanceAs (Decidable True)
  | before, stamp :: rest =>
    have := decidableTrackedRun (before ++ [stamp]) rest
    inferInstanceAs (Decidable (Tracked before stamp ∧ TrackedRun (before ++ [stamp]) rest))

theorem lastOf_concat (pid : Pid) (before : List Stamp) (stamp : Stamp) :
    lastOf pid (before ++ [stamp]) = if stamp.pid = pid then some stamp else lastOf pid before := by
  unfold lastOf
  rw [filter_append, filter_singleton]
  by_cases hpid : stamp.pid = pid
  · rw [if_pos hpid, decide_eq_true hpid, cond_true, getLast?_concat]
  · rw [if_neg hpid, decide_eq_false hpid, cond_false, append_nil]

/-! ## What the state stands for -/

/-- What the state is after the stamps `before`, the first of them `first`: all
is counted from the turn of that one. -/
structure Aligned (first : Stamp) (before : List Stamp) (origin : PtsOrigin) : Prop where
  head : before.head? = some first
  origin_first : origin.first = some first.raw
  carried : origin.carried = 0
  previous : ∀ last, before.getLast? = some last →
    origin.previous + first.turn * ptsModulus = last.time
  fresh : ∀ pid, lastOf pid before = none → origin.ticks pid = {}
  counted : ∀ pid last, lastOf pid before = some last →
    (origin.ticks pid).previous = last.raw ∧ (origin.ticks pid).wraps + first.turn = last.turn

/-- A stream whose turns are counted right extends its stamp to the time since
the first stamp's turn began. -/
theorem extend_eq {ticks : StreamTicks} {stamp : Stamp} {base : ℕ}
    (hturn : ticks.wraps + (if wrapRead ticks.previous stamp.raw then 1 else 0) + base = stamp.turn)
    (hspan : stamp.time ≤ base * ptsModulus + u64Max) :
    (ticks.extend stamp.raw).1 + base * ptsModulus = stamp.time ∧
      (ticks.extend stamp.raw).2.previous = stamp.raw ∧
      (ticks.extend stamp.raw).2.wraps + base = stamp.turn := by
  have htime := stamp.raw_add_turn
  have hmodulus : ptsModulus = 8589934592 := rfl
  rw [hmodulus] at htime hspan ⊢
  unfold StreamTicks.extend
  dsimp only
  have hwraps : (if wrapRead ticks.previous stamp.raw then saturatingAdd ticks.wraps 1
      else ticks.wraps) + base = stamp.turn := by
    split
    · rename_i hwrap
      rw [if_pos hwrap] at hturn
      rw [saturatingAdd_eq (by omega)]
      exact hturn
    · rename_i hwrap
      rw [if_neg hwrap] at hturn
      exact hturn
  rw [hmodulus]
  generalize (if wrapRead ticks.previous stamp.raw then saturatingAdd ticks.wraps 1
    else ticks.wraps) = wraps at hwraps ⊢
  rw [saturatingMul_eq (by omega), saturatingAdd_eq (by omega)]
  exact ⟨by omega, rfl, hwraps⟩

theorem aligned_first (stamp : Stamp) : (PtsOrigin.resolve {} stamp.pid stamp.raw).1 = 0 ∧
      Aligned stamp [stamp] (PtsOrigin.resolve {} stamp.pid stamp.raw).2 := by
  have hraw : stamp.raw < 8589934592 := Nat.mod_lt _ (by decide)
  have hnowrap : ¬wrapRead 0 stamp.raw := fun h => absurd h.1 (Nat.not_lt_zero _)
  have hextend : StreamTicks.extend {} stamp.raw = (stamp.raw, ⟨stamp.raw, 0⟩) := by
    unfold StreamTicks.extend
    dsimp only
    rw [if_neg hnowrap, saturatingMul_eq (by rw [Nat.zero_mul]; exact Nat.zero_le _), Nat.zero_mul,
      saturatingAdd_eq (by unfold u64Max; omega), Nat.add_zero]
  unfold PtsOrigin.resolve
  dsimp only
  rw [hextend]
  dsimp only
  rw [if_neg (fun h => absurd h.1 (Nat.not_lt_zero _))]
  refine ⟨by simp [PtsOrigin.nanos, saturatingAdd, saturatingMul], rfl, rfl, rfl, ?_, ?_, ?_⟩
  · rintro last hlast
    cases hlast
    exact stamp.raw_add_turn
  · intro pid hpid
    have hne : pid ≠ stamp.pid := by
      rintro rfl
      simp [lastOf] at hpid
    dsimp only
    rw [update_of_ne hne]
  · intro pid last hlast
    have hlast' := lastOf_concat pid [] stamp
    rw [nil_append, hlast] at hlast'
    split at hlast'
    · rename_i hpid
      cases hlast'
      subst hpid
      dsimp only
      rw [update_self]
      exact ⟨rfl, Nat.zero_add _⟩
    · cases hlast'

/-- **One stamp that the code can track resolves to the time elapsed.** -/
theorem Aligned.resolve {first stamp : Stamp} {before : List Stamp} {origin : PtsOrigin}
    (h : Aligned first before origin) (htracked : Tracked before stamp) :
    (origin.resolve stamp.pid stamp.raw).1 = elapsed first stamp ∧
      Aligned first (before ++ [stamp]) (origin.resolve stamp.pid stamp.raw).2 := by
  have hfirst := first.raw_add_turn
  have hraw : first.raw < 8589934592 := Nat.mod_lt _ (by decide)
  have hspan := htracked.span first h.head
  -- The stream's own counter, whether it has been heard before or not.
  have hturn : (origin.ticks stamp.pid).wraps +
      (if wrapRead (origin.ticks stamp.pid).previous stamp.raw then 1 else 0) + first.turn =
      stamp.turn := by
    cases hlast : lastOf stamp.pid before with
    | none =>
      rw [h.fresh _ hlast, htracked.joins hlast first h.head,
        if_neg (fun hwrap => absurd hwrap.1 (Nat.not_lt_zero _))]
      simp
    | some last =>
      obtain ⟨hprevious, hwraps⟩ := h.counted _ last hlast
      rw [htracked.turn last hlast, hprevious]
      omega
  have hmodulus : ptsModulus = 8589934592 := rfl
  have hmax : u64Max = 18446744073709551615 := rfl
  obtain ⟨hextended, hprevious, hwraps⟩ := @extend_eq _ _ first.turn hturn
    (by rw [hmodulus] at hfirst ⊢; omega)
  unfold PtsOrigin.resolve
  generalize (origin.ticks stamp.pid).extend stamp.raw = extended at *
  obtain ⟨extended, ticks⟩ := extended
  dsimp only at hextended hprevious hwraps ⊢
  obtain ⟨last, hlast⟩ : ∃ last, before.getLast? = some last := by
    cases hbefore : before.getLast? with
    | some last => exact ⟨last, rfl⟩
    | none =>
      rw [getLast?_eq_none_iff] at hbefore
      have hhead := h.head
      rw [hbefore] at hhead
      cases hhead
  have hbehind := htracked.step last hlast
  have hstep := h.previous last hlast
  rw [if_neg (by omega), h.origin_first, Option.getD_some, h.carried]
  refine ⟨?_, ?_⟩
  · have helapsed : extended - first.raw = stamp.time - first.time := by omega
    rw [PtsOrigin.nanos, helapsed, saturatingAdd_eq (by omega), Nat.zero_add,
      saturatingMul_eq hspan]
    rfl
  · refine ⟨?_, rfl, rfl, ?_, ?_, ?_⟩
    · rw [head?_append, h.head]
      rfl
    · intro latest hlatest
      rw [getLast?_concat] at hlatest
      cases hlatest
      exact hextended
    · intro pid hpid
      rw [lastOf_concat] at hpid
      split at hpid
      · cases hpid
      · rename_i hne
        rw [← h.fresh pid hpid]
        exact update_of_ne (Ne.symm hne) _ _
    · intro pid latest hlatest
      rw [lastOf_concat] at hlatest
      split at hlatest
      · rename_i heq
        cases hlatest
        subst heq
        dsimp only
        rw [update_self]
        exact ⟨hprevious, hwraps⟩
      · rename_i hne
        dsimp only
        rw [update_of_ne (Ne.symm hne)]
        exact h.counted pid latest hlatest

/-- The rest of a run, from a state that stands for what came before. -/
theorem Aligned.resolveAll {first : Stamp} {before stamps : List Stamp} {origin : PtsOrigin}
    (h : Aligned first before origin) (htracked : TrackedRun before stamps) :
    Miracast.resolveAll origin stamps = stamps.map (elapsed first) := by
  induction stamps generalizing before origin with
  | nil => rfl
  | cons stamp rest ih =>
    obtain ⟨hstamp, hrest⟩ := htracked
    obtain ⟨hresolved, hnext⟩ := h.resolve hstamp
    rw [Miracast.resolveAll, hresolved, map_cons, ih hnext hrest]

/-- **Every stamp resolves to the time since the first one**, in every run whose
stamps the code can track. -/
theorem resolveAll_eq_elapsed {stamps : List Stamp} (htracked : TrackedRun [] stamps) :
    resolveAll {} stamps = elapsedAll stamps := by
  cases stamps with
  | nil => rfl
  | cons first rest =>
    obtain ⟨hzero, haligned⟩ := aligned_first first
    have hrest := haligned.resolveAll htracked.2
    have hfirst : elapsed first first = 0 := by simp [elapsed]
    rw [resolveAll, hzero, hrest, elapsedAll, map_cons, hfirst]

/-- Video and audio on the two sides of a rollover, each rolling over at its own
moment. -/
def crossing : List Stamp :=
  [⟨33, 8589844592⟩, ⟨34, 8589754592⟩, ⟨33, 8589934592⟩, ⟨34, 8589844592⟩, ⟨33, 8590024592⟩,
    ⟨34, 8589934592⟩]

theorem resolveAll_crossing : resolveAll {} crossing = elapsedAll crossing :=
  resolveAll_eq_elapsed (by decide +kernel)

/-- Four frames of one stream across a rollover, the third of them reordered
back before it. -/
def reordered : List Stamp :=
  [⟨33, 8589928592⟩, ⟨33, 8589937592⟩, ⟨33, 8589931592⟩, ⟨33, 8589940592⟩]

/-- **A frame reordered back across a rollover sends time forward by a turn**,
and those after it too. -/
theorem reordered_across_wrap : Multiplexed reordered ∧
      resolveAll {} reordered = [0, 100000000, 95443751022222, 95443851022222] ∧
      elapsedAll reordered = [0, 100000000, 33333333, 133333333] ∧
      resolveAll {} reordered ≠ elapsedAll reordered := by
  decide +kernel

end Castaway.Miracast
