import Castaway.Pipeline.Projection
import Mathlib.Tactic.FieldSimp
import Mathlib.Tactic.Ring

/-!
# The projection over a run of readings

A reading that is absorbed leaves the projection where it is and trims its rate,
so that it is off the reading's timeline by an amount that goes to nothing in
`converge` (`drawn_observe`).  Up to then it is between where it was and where
the reading is, so its error is bounded by the two errors; after that it goes on
past the timeline at the trimmed rate.

So the projection follows a true timeline along a run in which no absorption is
left alone for longer than `converge` (`projection_follows`).
-/

namespace Castaway.Pipeline

namespace Projection

variable {projection : Projection} {position now total : ℚ} {duration : Option ℚ}

/-! ## Any projection -/

theorem clamp_le (htotal : total ∈ projection.duration) : projection.clamp position ≤ total := by
  rw [clamp, Option.mem_def.mp htotal]
  exact min_le_right _ _

theorem clamp_of_le (h : ∀ total ∈ projection.duration, position ≤ total) :
    projection.clamp position = position := by
  rw [clamp]
  cases hduration : projection.duration with
  | none => rfl
  | some total => exact min_eq_left (h total hduration)

theorem clamp_mono {other : ℚ} (h : position ≤ other) :
    projection.clamp position ≤ projection.clamp other := by
  rw [clamp, clamp]
  cases projection.duration with
  | none => exact h
  | some total => exact min_le_min_right total h

/-- Cutting a position at the duration brings it no further from what is inside.
-/
theorem abs_clamp_sub_le {inside : ℚ} (h : ∀ total ∈ projection.duration, inside ≤ total) :
    |projection.clamp position - inside| ≤ |position - inside| := by
  rw [clamp]
  cases hduration : projection.duration with
  | none => exact le_refl _
  | some total =>
    have hinside := h total hduration
    dsimp only
    rcases le_total position total with hle | hle
    · rw [min_eq_left hle]
    · rw [min_eq_right hle, abs_of_nonneg (by linarith), abs_of_nonneg (by linarith)]
      linarith

theorem drawn_le (htotal : total ∈ projection.duration) : projection.drawn now ≤ total := by
  unfold drawn
  split
  · exact clamp_le htotal
  · exact clamp_le htotal

theorem drawn_paused (h : projection.running = false) (now later : ℚ) :
    projection.drawn now = projection.drawn later := by
  rw [drawn, drawn, h, if_neg Bool.false_ne_true, if_neg Bool.false_ne_true]

theorem drawn_snapped (position now : ℚ) (running : Bool) (duration : Option ℚ) :
    (Projection.mk position now 1 running duration).drawn now =
      (Projection.mk position now 1 running duration).clamp position := by
  unfold drawn
  split
  · dsimp only
    rw [sub_self, max_self, zero_mul, add_zero]
  · rfl

theorem drift_eq (position shown : ℚ) :
    (if shown ≤ position then position - shown else shown - position) = |position - shown| := by
  split
  · next hle => rw [abs_of_nonneg (by linarith)]
  · next hlt => rw [abs_of_neg (by linarith), neg_sub]

/-- A seek, or a change between paused and running, is taken as it is. -/
theorem observe_snapped {running : Bool}
    (h : seekThreshold ≤ |position - projection.drawn now| ∨ projection.running ≠ running) :
    projection.observe position now running duration = ⟨position, now, 1, running, duration⟩ := by
  unfold observe
  dsimp only
  split
  · rfl
  · next hsame =>
      have hseek := h.resolve_right hsame
      rw [drift_eq, if_pos (Or.inl hseek)]

theorem drawn_observe_snapped {running : Bool}
    (h : seekThreshold ≤ |position - projection.drawn now| ∨ projection.running ≠ running)
    (hinside : ∀ total ∈ duration, position ≤ total) :
    (projection.observe position now running duration).drawn now = position := by
  rw [observe_snapped h, drawn_snapped]
  exact clamp_of_le hinside

theorem observe_drift (hrunning : projection.running = true)
    (h : |position - projection.drawn now| < seekThreshold) :
    projection.observe position now true duration =
      ⟨projection.drawn now, now, 1 + (position - projection.drawn now) / converge, true,
        duration⟩ := by
  have htrim : |position - projection.drawn now| / converge ≤ maxTrim := by
    rw [maxTrim, converge]
    linarith
  have hnot : ¬ (seekThreshold ≤ |position - projection.drawn now| ∨ true = false) := by
    rintro (hle | hfalse)
    · linarith
    · cases hfalse
  have hsame : ¬ projection.running ≠ true := not_not.mpr hrunning
  unfold observe
  dsimp only
  rw [if_neg hsame, drift_eq, if_neg hnot, min_eq_left htrim]
  congr 1
  split
  · next hle => rw [abs_of_nonneg (by linarith)]
  · next hlt =>
      rw [abs_of_neg (by linarith), neg_div]
      linarith

end Projection

/-! ## A run of readings -/

/-- What a source that is playing says, and when. -/
structure Reading where
  position : ℚ
  instant : ℚ
  duration : Option ℚ
  deriving DecidableEq, Repr

/-- A projection, and the reading it took last. -/
structure Following where
  projection : Projection
  last : Reading
  deriving DecidableEq, Repr

namespace Following

def start (first : Reading) : Following :=
  ⟨.new first.position first.instant true first.duration, first⟩

def take (following : Following) (reading : Reading) : Following :=
  ⟨following.projection.observe reading.position reading.instant true reading.duration, reading⟩

def run (first : Reading) (rest : List Reading) : Following := rest.foldl take (start first)

/-- The reading comes no earlier than the last one, is within a seek of what is
shown, and inside the item. -/
def Drifts (following : Following) (reading : Reading) : Prop :=
  following.last.instant ≤ reading.instant ∧
    |reading.position - following.projection.drawn reading.instant| < seekThreshold ∧
    ∀ total ∈ reading.duration, reading.position ≤ total

/-- No absorption is left alone for longer than `converge`: the last reading is
that recent, or it agreed with what was shown. -/
def Prompt (following : Following) (now : ℚ) : Prop :=
  now - following.last.instant ≤ converge ∨ following.projection.rate = 1

/-- The reading does not say that the item is shorter than what is shown. -/
def Holds (following : Following) (reading : Reading) : Prop :=
  ∀ total ∈ reading.duration, following.projection.drawn reading.instant ≤ total

/-- The timeline that is at `origin` at no time is inside the item. -/
def Contains (origin : ℚ) (following : Following) (now : ℚ) : Prop :=
  ∀ total ∈ following.projection.duration, origin + now ≤ total

instance (following : Following) (now : ℚ) : Decidable (following.Prompt now) :=
  inferInstanceAs (Decidable (_ ∨ _))

instance (following : Following) (reading : Reading) : Decidable (following.Holds reading) :=
  inferInstanceAs (Decidable (∀ total ∈ reading.duration, _))

instance (origin : ℚ) (following : Following) (now : ℚ) :
    Decidable (Contains origin following now) :=
  inferInstanceAs (Decidable (∀ total ∈ following.projection.duration, _))

variable {following : Following} {reading : Reading} {origin e now : ℚ}

/-- What a projection is, after a reading that did not move it. -/
structure Tracks (origin e : ℚ) (following : Following) : Prop where
  running : following.projection.running = true
  anchored : following.projection.anchorAt = following.last.instant
  /-- It meets the reading's timeline after `converge`. -/
  meets : following.projection.rate =
    1 + (following.last.position - following.projection.anchor) / converge
  drift : |following.last.position - following.projection.anchor| < seekThreshold
  inside : ∀ total ∈ following.projection.duration, following.projection.anchor ≤ total
  near : |following.last.position - (origin + following.last.instant)| ≤ e
  error : |following.projection.anchor - (origin + following.last.instant)| ≤ e

namespace Tracks

section

variable (h : Tracks origin e following)
include h

theorem drawn (hnow : following.last.instant ≤ now) :
    following.projection.drawn now = following.projection.clamp (following.projection.anchor +
      (now - following.last.instant) * following.projection.rate) := by
  rw [Projection.drawn, h.running, if_pos rfl, h.anchored]
  dsimp only
  rw [max_eq_left (by linarith)]

theorem drawn_last :
    following.projection.drawn following.last.instant = following.projection.anchor := by
  rw [h.drawn (le_refl _), sub_self, zero_mul, add_zero]
  exact Projection.clamp_of_le h.inside

theorem rate_pos : 0 < following.projection.rate := by
  have hdrift := abs_lt.mp h.drift
  rw [seekThreshold] at hdrift
  rw [h.meets, converge]
  linarith [hdrift.1]

/-- Between two readings the position drawn never goes back. -/
theorem mono {earlier : ℚ} (hearlier : following.last.instant ≤ earlier) (hle : earlier ≤ now) :
    following.projection.drawn earlier ≤ following.projection.drawn now := by
  rw [h.drawn hearlier, h.drawn (hearlier.trans hle)]
  apply Projection.clamp_mono
  have hrate := h.rate_pos
  gcongr

/-- Where the projection is while the absorption lasts lies between the two
errors. -/
theorem error_le (hnow : following.last.instant ≤ now)
    (hprompt : Prompt following now) (hinside : Contains origin following now) :
    |following.projection.drawn now - (origin + now)| ≤
      max |following.projection.anchor - (origin + following.last.instant)| e := by
  rw [h.drawn hnow]
  refine (Projection.abs_clamp_sub_le hinside).trans ?_
  let elapsed := now - following.last.instant
  have hbefore := le_max_left |following.projection.anchor - (origin + following.last.instant)| e
  have hreading := h.near.trans
    (le_max_right |following.projection.anchor - (origin + following.last.instant)| e)
  rcases hprompt with hsoon | hagreed
  · rw [abs_le] at hbefore hreading ⊢
    rw [converge] at hsoon
    rw [h.meets, converge]
    constructor
    · nlinarith [hbefore.1, hreading.1]
    · nlinarith [hbefore.2, hreading.2]
  · rw [hagreed, mul_one]
    convert hbefore using 2
    ring

end

theorem start {first : Reading} (hnear : |first.position - (origin + first.instant)| ≤ e)
    (hinside : ∀ total ∈ first.duration, first.position ≤ total) :
    Tracks origin e (start first) where
  running := rfl
  anchored := rfl
  meets := by
    change (1 : ℚ) = 1 + (first.position - first.position) / converge
    rw [sub_self, zero_div, add_zero]
  drift := by
    change |first.position - first.position| < seekThreshold
    rw [sub_self, abs_zero, seekThreshold]
    norm_num
  inside := hinside
  near := hnear
  error := hnear

section

variable (h : Tracks origin e following)
include h

/-- A reading that drifts leaves the projection where it is. -/
theorem take (hdrifts : Drifts following reading)
    (hnear : |reading.position - (origin + reading.instant)| ≤ e)
    (hprompt : Prompt following reading.instant) (hholds : Holds following reading)
    (hinside : Contains origin following reading.instant) :
    Tracks origin e (following.take reading) := by
  obtain ⟨horder, hdrift, -⟩ := hdrifts
  have herror := h.error_le horder hprompt hinside
  rw [max_eq_right h.error] at herror
  rw [Following.take, Projection.observe_drift h.running hdrift]
  exact ⟨rfl, rfl, rfl, hdrift, hholds, hnear, herror⟩

theorem drawn_take (hdrifts : Drifts following reading)
    (hholds : Holds following reading) : (following.take reading).projection.drawn reading.instant =
      following.projection.drawn reading.instant := by
  obtain ⟨-, hdrift, -⟩ := hdrifts
  rw [Following.take, Projection.observe_drift h.running hdrift, Projection.drawn, if_pos rfl]
  dsimp only
  rw [sub_self, max_self, zero_mul, add_zero]
  exact Projection.clamp_of_le hholds

/-- Where an absorption ends, the projection is on the reading's timeline; and
it stays there if it was on it all along. -/
theorem drawn_converged (hprompt : Prompt following now)
    (hlong : converge ≤ now - following.last.instant) :
    following.projection.drawn now = following.projection.clamp
      (following.last.position + (now - following.last.instant)) := by
  have hpos : (0 : ℚ) < converge := by
    rw [converge]
    norm_num
  rw [h.drawn (by linarith)]
  congr 1
  have hmeets := h.meets
  rcases hprompt with hsoon | hagreed
  · rw [h.meets, le_antisymm hsoon hlong]
    field_simp
    ring
  · rw [hagreed, left_eq_add, div_eq_zero_iff, or_iff_left hpos.ne', sub_eq_zero] at hmeets
    rw [hagreed, hmeets, mul_one]

/-- An absorption that is left alone for longer takes the projection off the
timeline again. -/
theorem on_timeline_iff (hduration : following.projection.duration = none)
    (hlong : converge ≤ now - following.last.instant) :
    following.projection.drawn now = following.last.position + (now - following.last.instant) ↔
      Prompt following now := by
  have hclamp (position : ℚ) : following.projection.clamp position = position := by
    rw [Projection.clamp, hduration]
  constructor
  · intro hon
    rw [converge] at hlong
    rw [h.drawn (by linarith), hclamp, h.meets, converge] at hon
    have hproduct : (following.last.position - following.projection.anchor) *
        (now - following.last.instant - 2) = 0 := by linarith
    rcases mul_eq_zero.mp hproduct with hagreed | hsoon
    · refine Or.inr ?_
      rw [h.meets, hagreed, zero_div, add_zero]
    · refine Or.inl ?_
      rw [converge]
      linarith
  · intro hprompt
    rw [h.drawn_converged hprompt hlong, hclamp]

end

end Tracks

/-- The position drawn at an instant follows a true timeline. -/
structure Follows (origin e : ℚ) (following : Following) (now : ℚ) : Prop where
  /-- The error is no more than it was at the last reading, or than the
  readings'. -/
  error : |following.projection.drawn now - (origin + now)| ≤
    max |following.projection.drawn following.last.instant - (origin + following.last.instant)| e
  /-- And so it never exceeds the readings'. -/
  near : |following.projection.drawn now - (origin + now)| ≤ e
  rising : ∀ earlier, following.last.instant ≤ earlier → earlier ≤ now →
    following.projection.drawn earlier ≤ following.projection.drawn now
  /-- From `converge` after a reading on, the projection is on its timeline. -/
  converged : converge ≤ now - following.last.instant →
    following.projection.drawn now = following.projection.clamp
      (following.last.position + (now - following.last.instant))
  /-- The rate is away from one only while an error is being absorbed. -/
  absorbing : following.projection.rate ≠ 1 → now - following.last.instant ≤ converge

theorem Tracks.follows (h : Tracks origin e following) (hnow : following.last.instant ≤ now)
    (hprompt : Prompt following now) (hinside : Contains origin following now) :
    Follows origin e following now := by
  have herror := h.error_le hnow hprompt hinside
  refine ⟨?_, ?_, fun earlier hearlier hle => h.mono hearlier hle,
    h.drawn_converged hprompt, fun hrate => hprompt.resolve_right hrate⟩
  · rwa [h.drawn_last]
  · rwa [max_eq_right h.error] at herror

/-- What a reading of a run is like, and what it meets. -/
structure Sound (origin e : ℚ) (following : Following) (reading : Reading) : Prop where
  /-- The source is within a drift of what is shown, and within `e` of the
  timeline. -/
  drifts : Drifts following reading
  near : |reading.position - (origin + reading.instant)| ≤ e
  inside : Contains origin following reading.instant
  /-- The absorption before it has not been left alone. -/
  prompt : Prompt following reading.instant
  holds : Holds following reading

theorem tracks_run {first : Reading} {rest : List Reading}
    (hnear : |first.position - (origin + first.instant)| ≤ e)
    (hinside : ∀ total ∈ first.duration, first.position ≤ total)
    (hrest : Along take (Sound origin e) rest (start first)) :
    Tracks origin e (run first rest) := by
  unfold run
  have hstart : Tracks origin e (start first) := .start hnear hinside
  generalize start first = following at hstart hrest
  induction rest generalizing following with
  | nil => exact hstart
  | cons reading rest ih =>
    obtain ⟨hsound, hlater⟩ := hrest
    rw [List.foldl_cons]
    exact ih _ (hstart.take hsound.drifts hsound.near hsound.prompt hsound.holds hsound.inside)
      hlater

end Following

open Following in
/-- Along a run in which every absorption is ended in time, the projection
follows the timeline that its readings are near; left alone for longer, it is
off the last reading's.  No reading moves the position drawn at its own instant.
Of every projection, whatever it has been told: a seek or a change of state is
taken as it is, a paused one stands still, and none exceeds its duration. -/
theorem projection_follows {origin e : ℚ} {first : Reading} {rest : List Reading}
    (hnear : |first.position - (origin + first.instant)| ≤ e)
    (hinside : ∀ total ∈ first.duration, first.position ≤ total)
    (hrest : Along take (Sound origin e) rest (start first)) :
    (∀ now, (run first rest).last.instant ≤ now → Prompt (run first rest) now →
      Contains origin (run first rest) now → Follows origin e (run first rest) now) ∧
    (∀ now, (run first rest).projection.duration = none →
      converge ≤ now - (run first rest).last.instant →
        ((run first rest).projection.drawn now =
            (run first rest).last.position + (now - (run first rest).last.instant) ↔
          Prompt (run first rest) now)) ∧
    (∀ earlier reading later, rest = earlier ++ reading :: later →
      (run first (earlier ++ [reading])).projection.drawn reading.instant =
        (run first earlier).projection.drawn reading.instant) ∧ ∀ projection : Projection,
      (∀ position now running duration, (∀ total ∈ duration, position ≤ total) →
        seekThreshold ≤ |position - projection.drawn now| ∨ projection.running ≠ running →
          (projection.observe position now running duration).drawn now = position) ∧
      (projection.running = false → ∀ now later, projection.drawn now = projection.drawn later) ∧
      ∀ now, ∀ total ∈ projection.duration, projection.drawn now ≤ total := by
  have hrun := tracks_run hnear hinside hrest
  refine ⟨fun now hnow hprompt hcontains => ?_, fun now hduration hlong => ?_, ?_,
    fun projection => ⟨?_, ?_, ?_⟩⟩
  · exact hrun.follows hnow hprompt hcontains
  · exact hrun.on_timeline_iff hduration hlong
  · rintro earlier reading later rfl
    rw [along_append] at hrest
    have htracks := tracks_run hnear hinside hrest.1
    have hsound := hrest.2.1
    rw [run, List.foldl_concat]
    exact htracks.drawn_take hsound.drifts hsound.holds
  · exact fun position now running duration htotal h => projection.drawn_observe_snapped h htotal
  · exact Projection.drawn_paused
  · exact fun now total htotal => Projection.drawn_le htotal

open Following in
/-- A projection that was a tenth of a second ahead, a second after the reading
that said so. -/
theorem projection_follows_ahead :
    Follows (199 / 20) (1 / 20) (run ⟨10, 0, none⟩ [⟨109 / 10, 1, none⟩]) 2 := by
  have hsound : Along take (Sound (199 / 20) (1 / 20)) [⟨109 / 10, 1, none⟩]
      (start ⟨10, 0, none⟩) := by
    refine ⟨⟨⟨?_, ?_, ?_⟩, ?_, ?_, ?_, ?_⟩, trivial⟩
    all_goals decide +kernel
  refine (projection_follows (by decide +kernel) ?_ hsound).1 2 ?_ ?_ ?_
  all_goals decide +kernel

open Following in
/-- A minute after it the projection is almost three seconds behind. -/
theorem absorption_goes_on :
    let first : Reading := ⟨10, 0, none⟩
    let reading : Reading := ⟨109 / 10, 1, none⟩
    Drifts (start first) reading ∧
      |first.position - (199 / 20 + first.instant)| ≤ 1 / 20 ∧
      |reading.position - (199 / 20 + reading.instant)| ≤ 1 / 20 ∧
      (run first [reading]).projection.drawn 61 = 68 ∧
      ¬ |(run first [reading]).projection.drawn 61 - (199 / 20 + 61)| ≤
        max |(run first [reading]).projection.drawn 1 - (199 / 20 + 1)| (1 / 20) ∧
      (run first [reading]).projection.drawn 61 ≠ reading.position + 60 := by
  refine ⟨⟨?_, ?_, ?_⟩, ?_, ?_, ?_, ?_, ?_⟩
  all_goals decide +kernel

end Castaway.Pipeline
