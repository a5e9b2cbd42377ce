import Castaway.Kiosk.Sleep
import Castaway.Lib.Runs
import Mathlib.Data.List.MinMax

/-!
# What the panel owes is drawn in time

A deadline that stands is met: a clear, a banner and a home return are due at an
instant that no pass moves (`RenderLoop.anchored`).  Three deadlines do not
stand.  The arrow's is dropped at the very instant it names, the bars' is
dropped once a second has gone by without sound, and the strip's is counted from
the asking and recedes with every pass.  And a surface that a frame sets off
after its motions were advanced is not known to move.

`Loop.Meets` keeps a run clear of these four, and `prompt_run` is what such a
run can count on.  `overslept` has one run for each of the four.

## Strategy

What the loop knows when it goes to sleep is kept in `Loop.Asleep`: it owes no
frame, it sleeps until a deadline that stands, and everything that does not
stand is due no earlier.  Only an event, a redraw and the mixer change what it
was derived from.
-/

namespace Castaway.Kiosk

variable {R : Type*}

namespace RenderLoop

variable {r r' : RenderLoop R} {now : Instant}

/-! ## Every surface is where it was placed -/

/-- Nothing has been asked of the panel that the motions do not know of. -/
def Placed (r : RenderLoop R) : Prop := r.placed = r.wants

theorem placed_reflow (r : RenderLoop R) : r.reflowSurfaces.Placed := rfl

section

variable (h : r.Placed)
include h

theorem Placed.reflow : r.reflowSurfaces = r := by
  have hmotions : r.reflowSurfaces.motions = r.motions := by
    funext surface
    exact if_pos (congrFun h surface)
  calc r.reflowSurfaces
      = { r with placed := r.wants, motions := r.reflowSurfaces.motions } := rfl
    _ = { r with placed := r.wants } := by rw [hmotions]
    _ = r := by rw [← h]

theorem Placed.congr (hpanel : r'.panel = r.panel) (hplaced : r'.placed = r.placed) :
    r'.Placed := by
  have hwants : r'.wants = r.wants := by
    funext surface
    simp only [wants, hpanel]
  rw [Placed, hplaced, hwants]
  exact h

theorem Placed.setSurface (surface : Surface) (present : Bool) :
    (r.setSurface surface present).Placed := by
  rw [RenderLoop.setSurface]
  split
  · exact h
  · exact placed_reflow _

theorem Placed.tickTransition (landed : Bool) : (r.tickTransition landed).Placed := by
  rw [RenderLoop.tickTransition]
  split
  · exact h
  · split
    · exact h
    · split
      · rw [undoTransition]
        cases r.transitionUndo with
        | none => exact h.congr rfl rfl
        | some undo => cases undo <;> exact (placed_reflow _).congr rfl rfl
      · exact h.congr rfl rfl

theorem Placed.shellPush (outgoing : Bool) : (r.shellPush outgoing).Placed := by
  rw [RenderLoop.shellPush]
  split
  · exact h
  · exact placed_reflow _

theorem Placed.shellBack (outgoing : Bool) : (r.shellBack outgoing).Placed := by
  rw [RenderLoop.shellBack]
  split
  · exact h
  · exact placed_reflow _

theorem Placed.replaceTop : r.replaceTop.Placed := by
  rw [RenderLoop.replaceTop]
  split
  · exact placed_reflow _
  · exact h

end

theorem placed_leaveTo (r : RenderLoop R) (rested : Panel) (outgoing : Bool) :
    (r.leaveTo rested outgoing).Placed := by
  rw [leaveTo]
  split <;> exact placed_reflow _

theorem Placed.restPanelIfIdle (h : r.Placed) (outgoing : Bool) (now : Instant) :
    (r.restPanelIfIdle outgoing now).Placed := by
  rw [RenderLoop.restPanelIfIdle]
  split
  · exact h
  · exact placed_leaveTo _ _ _

theorem Placed.retireFinished (h : r.Placed) : r.retireFinished.Placed := by
  rw [RenderLoop.retireFinished]
  split
  · exact h.congr rfl rfl
  · exact h

section Commands

variable [Float64 R]

theorem Placed.setTransport (h : r.Placed) (model : TransportModel) (trackWidth : Option R)
    (newItem painted : Bool) (now : Instant) :
    (r.setTransport model trackWidth newItem painted now).Placed := by
  rw [RenderLoop.setTransport]
  split
  · exact h.congr rfl rfl
  · dsimp only
    split
    · exact h.congr rfl rfl
    · exact h

theorem Placed.apply (h : r.Placed) (now : Instant) (cmd : RenderCommand R) :
    (r.apply now cmd).Placed := by
  cases cmd with
  | video epoch landed =>
    rw [RenderLoop.apply]
    split
    · exact h
    · have hlive : Placed { r with videoClearDue := none } := h.congr rfl rfl
      split
      · exact hlive.setSurface _ _
      · exact hlive
  | nowPlaying model trackWidth newItem drawn painted =>
    have hlive : Placed { r with cardClearDue := none, cardLayer := r.cardLayer || drawn } :=
      h.congr rfl rfl
    exact (hlive.setTransport model trackWidth newItem painted now).setSurface _ _
  | clearVideo epoch | clearNowPlaying => exact h.congr rfl rfl
  | home => exact placed_reflow _
  | pushScreen outgoing => exact h.shellPush outgoing
  | replaceScreen => exact h.replaceTop
  | replaceScreenTagged onTop =>
    rw [RenderLoop.apply]
    split
    · exact h.replaceTop
    · exact h
  | shellBack outgoing => exact h.shellBack outgoing
  | restPanel outgoing => exact h.restPanelIfIdle outgoing now
  | addTap | urlAudioOnly drawn => exact h.congr rfl rfl

theorem Placed.beginFrame (h : r.Placed) (o : Outside R) (now : Instant) :
    (r.beginFrame o now).Placed := by
  have hcommanded : (o.commands.foldl (fun r cmd => r.apply now cmd) r).Placed := by
    refine List.foldlRecOn o.commands _ h fun r hr cmd _ => ?_
    exact hr.apply now cmd
  exact (hcommanded.tickTransition o.landed).congr rfl rfl

end Commands

/-! ## What a frame leaves in flight -/

/-- No surface is part-way. -/
def Settled (r : RenderLoop R) : Prop := ∀ surface, (r.motions surface).inFlight = false

/-- The same surfaces, motions and reasons for a frame. -/
structure SameMotion (r r' : RenderLoop R) : Prop where
  panel : r'.panel = r.panel
  placed : r'.placed = r.placed
  motions : r'.motions = r.motions
  animating : r'.animating = r.animating
  transition : r'.transition = r.transition
  taps : r'.taps = r.taps
  lastTouch : r'.lastTouch = r.lastTouch
  videoClearDue : r'.videoClearDue = r.videoClearDue
  cardClearDue : r'.cardClearDue = r.cardClearDue

theorem SameMotion.refl (r : RenderLoop R) : SameMotion r r :=
  ⟨rfl, rfl, rfl, rfl, rfl, rfl, rfl, rfl, rfl⟩

theorem SameMotion.trans {r'' : RenderLoop R} (h : SameMotion r r') (h' : SameMotion r' r'') :
    SameMotion r r'' where
  panel := h'.panel.trans h.panel
  placed := h'.placed.trans h.placed
  motions := h'.motions.trans h.motions
  animating := h'.animating.trans h.animating
  transition := h'.transition.trans h.transition
  taps := h'.taps.trans h.taps
  lastTouch := h'.lastTouch.trans h.lastTouch
  videoClearDue := h'.videoClearDue.trans h.videoClearDue
  cardClearDue := h'.cardClearDue.trans h.cardClearDue

theorem sameMotion_tickTransport [Float64 R] (painted : Bool) :
    SameMotion r (r.tickTransport painted now) := by
  rw [tickTransport]
  split
  · exact .refl r
  · split
    · exact .refl r
    · split
      · exact ⟨rfl, rfl, rfl, rfl, rfl, rfl, rfl, rfl, rfl⟩
      · exact .refl r

theorem sameMotion_tickVisualizer : SameMotion r (r.tickVisualizer now) := by
  rw [tickVisualizer]
  split
  · exact ⟨rfl, rfl, rfl, rfl, rfl, rfl, rfl, rfl, rfl⟩
  · exact .refl r

theorem sameMotion_updateOsd (o : Outside R) : SameMotion r (r.updateOsd o now) :=
  ⟨rfl, rfl, rfl, rfl, rfl, rfl, rfl, rfl, rfl⟩

theorem sameMotion_retireFinished : SameMotion r r.retireFinished := by
  rw [retireFinished]
  split
  · exact ⟨rfl, rfl, rfl, rfl, rfl, rfl, rfl, rfl, rfl⟩
  · exact .refl r

theorem mem_all (surface : Surface) : surface ∈ Surface.all := by
  cases surface <;> decide

theorem inFlight_arrive (phase : Phase) : phase.arrive.inFlight = false := by
  cases phase <;> rfl

/-- What the loop does not know to be animating has settled. -/
theorem settled_of_not_animating (o : Outside R)
    (h : (r.tickMotion o).animating = false) : (r.tickMotion o).Settled := by
  intro surface
  have hsteps : (decide (r.motions surface ≠ .absent) && !o.arrived surface) = false := by
    have hany := (Bool.or_eq_false_iff.mp h).1
    exact Bool.eq_false_iff.mpr (List.any_eq_false.mp hany surface (mem_all surface))
  change (if r.motions surface = .absent ∨ !o.arrived surface then r.motions surface
    else (r.motions surface).arrive).inFlight = false
  split
  · rename_i hstays
    rcases hstays with habsent | hflies
    · rw [habsent]
      rfl
    · rw [hflies, Bool.and_true] at hsteps
      rw [not_not.mp (of_decide_eq_false hsteps)]
      rfl
  · exact inFlight_arrive _

/-- Without a shell nothing travels. -/
theorem Settled.reflow (h : r.Settled) (hdepth : r.panel.depth = 0) : r.reflowSurfaces.Settled := by
  intro surface
  change (if r.placed surface = r.wants surface then r.motions surface
    else r.setOff surface).inFlight = false
  split
  · exact h surface
  · rw [setOff, if_pos hdepth]
    split <;> rfl

theorem depth_setSurface (surface : Surface) (present : Bool) :
    (r.setSurface surface present).panel.depth = r.panel.depth := by
  rw [setSurface]
  split <;> rfl

theorem Settled.setSurface (h : r.Settled) (hdepth : r.panel.depth = 0) (surface : Surface)
    (present : Bool) : (r.setSurface surface present).Settled := by
  rw [RenderLoop.setSurface]
  split
  · exact h
  · exact Settled.reflow h hdepth

theorem depth_rest (p : Panel) (h : p.depth = 0) : p.rest.depth = 0 := by
  cases habove : p.above with
  | none => simp [Panel.depth, Panel.rest, habove]
  | some n => simp [Panel.depth, habove] at h

/-! ### What is known to move stays known -/

/-- The loop knows that it owes a frame, and not by a tap alone. -/
def Busy (r : RenderLoop R) : Prop := r.animating = true ∨ r.transition.isSome = true

theorem Busy.congr (h : r.Busy) (hanimating : r'.animating = r.animating)
    (htransition : r'.transition = r.transition) : r'.Busy := by
  rw [Busy, hanimating, htransition]
  exact h

theorem Busy.beginTransition (h : r.Busy) (driven outgoing : Bool) :
    (r.beginTransition driven outgoing).Busy := by
  rw [RenderLoop.beginTransition]
  split
  · exact .inr rfl
  · exact h

theorem Busy.setSurface (h : r.Busy) (surface : Surface) (present : Bool) :
    (r.setSurface surface present).Busy := by
  rw [RenderLoop.setSurface]
  split
  · exact h
  · exact h.congr rfl rfl

theorem Busy.tickHomeReturn (h : r.Busy) (outgoing : Bool) (now : Instant) :
    (r.tickHomeReturn outgoing now).Busy := by
  rw [RenderLoop.tickHomeReturn]
  split
  · rw [restPanel, leaveTo]
    split
    · exact (h.beginTransition false outgoing).congr rfl rfl
    · exact h.congr rfl rfl
  · exact h

theorem Busy.runDueClears (h : r.Busy) (now : Instant) : (r.runDueClears now).Busy := by
  have hvideo : (r.runVideoClear now).Busy := by
    rw [runVideoClear]
    split
    · have hclear : Busy { r with videoClearDue := none } := h
      exact hclear.setSurface _ _
    · exact h
  have hcard : ((r.runVideoClear now).runCardClear now).Busy := by
    rw [runCardClear]
    split
    · have hclear : Busy { r.runVideoClear now with cardClearDue := none } := hvideo
      exact hclear.setSurface _ _
    · exact hvideo
  exact hcard.congr sameMotion_retireFinished.animating sameMotion_retireFinished.transition

/-! ### A frame that sees what it moves -/

/-- A home return and the clears that run out in a frame are seen to move what
they move: something else is in motion, there is no shell to move before, the
return is a navigation, or they move nothing. -/
def Seen (begun : RenderLoop R) (o : Outside R) (now : Instant) : Prop :=
  begun.Busy ∨ o.tapsDone < begun.taps ∨ begun.panel.depth = 0 ∨
    (begun.homeReturnDue.any (· ≤ now) = true ∧ 1 < begun.panel.depth ∧ o.outgoing = true) ∨
    (begun.homeReturnDue.any (· ≤ now) = false ∧
      (begun.videoClearDue.any (· ≤ now) = true → begun.panel.surfaces.video = false) ∧
      (begun.cardClearDue.any (· ≤ now) = true → begun.panel.surfaces.card = false))

theorem SameMotion.homeReturnDue (h : SameMotion r r') : r'.homeReturnDue = r.homeReturnDue := by
  rw [RenderLoop.homeReturnDue, RenderLoop.homeReturnDue, h.lastTouch, h.panel]

theorem Seen.congr {o : Outside R} (h : Seen r o now) (hsame : SameMotion r r') :
    Seen r' o now := by
  rw [Seen, Busy, hsame.animating, hsame.transition, hsame.taps, hsame.panel, hsame.homeReturnDue,
    hsame.videoClearDue, hsame.cardClearDue]
  exact h

theorem Settled.congr (h : r.Settled) (hmotions : r'.motions = r.motions) : r'.Settled := by
  rw [Settled, hmotions]
  exact h

structure SameSurfaces (r r' : RenderLoop R) : Prop where
  panel : r'.panel = r.panel
  placed : r'.placed = r.placed
  motions : r'.motions = r.motions

/-- A clear of a surface that is not up moves nothing. -/
theorem sameSurfaces_runVideoClear
    (h : r.videoClearDue.any (· ≤ now) = true → r.panel.surfaces.video = false) :
    SameSurfaces r (r.runVideoClear now) := by
  rw [runVideoClear]
  split
  · rename_i hdue
    have hstays : { r with videoClearDue := none }.setSurface .video false =
        { r with videoClearDue := none } :=
      if_pos (h hdue)
    rw [hstays]
    exact ⟨rfl, rfl, rfl⟩
  · exact ⟨rfl, rfl, rfl⟩

theorem sameSurfaces_runCardClear
    (h : r.cardClearDue.any (· ≤ now) = true → r.panel.surfaces.card = false) :
    SameSurfaces r (r.runCardClear now) := by
  rw [runCardClear]
  split
  · rename_i hdue
    have hstays : { r with cardClearDue := none }.setSurface .card false =
        { r with cardClearDue := none } :=
      if_pos (h hdue)
    rw [hstays]
    exact ⟨rfl, rfl, rfl⟩
  · exact ⟨rfl, rfl, rfl⟩

theorem cardClearDue_runVideoClear : (r.runVideoClear now).cardClearDue = r.cardClearDue := by
  rw [runVideoClear]
  split
  · rw [setSurface]
    split <;> rfl
  · rfl

theorem depth_runVideoClear : (r.runVideoClear now).panel.depth = r.panel.depth := by
  rw [runVideoClear]
  split
  · exact depth_setSurface _ _
  · rfl

theorem depth_runCardClear : (r.runCardClear now).panel.depth = r.panel.depth := by
  rw [runCardClear]
  split
  · exact depth_setSurface _ _
  · rfl

/-- Clears that move nothing leave every surface where it is. -/
theorem Settled.runDueClears_unmoved (h : r.Settled)
    (hvideo : r.videoClearDue.any (· ≤ now) = true → r.panel.surfaces.video = false)
    (hcard : r.cardClearDue.any (· ≤ now) = true → r.panel.surfaces.card = false)
    (hplaced : r.Placed) : (r.runDueClears now).reflowSurfaces.Settled := by
  have hone := sameSurfaces_runVideoClear hvideo
  have htwo : SameSurfaces (r.runVideoClear now) ((r.runVideoClear now).runCardClear now) := by
    refine sameSurfaces_runCardClear fun hdue => ?_
    rw [hone.panel]
    exact hcard (by rwa [cardClearDue_runVideoClear] at hdue)
  have hkept : (r.runDueClears now).Placed :=
    ((hplaced.congr hone.panel hone.placed).congr htwo.panel htwo.placed).retireFinished
  rw [hkept.reflow]
  exact ((h.congr hone.motions).congr htwo.motions).congr sameMotion_retireFinished.motions

/-- Without a shell a clear puts its surface away at once. -/
theorem Settled.runDueClears_bare (h : r.Settled) (hdepth : r.panel.depth = 0) :
    (r.runDueClears now).reflowSurfaces.Settled := by
  have hone : (r.runVideoClear now).Settled := by
    rw [runVideoClear]
    split
    · have hclear : Settled { r with videoClearDue := none } := h
      exact hclear.setSurface hdepth _ _
    · exact h
  have hdepth' : (r.runVideoClear now).panel.depth = 0 := depth_runVideoClear.trans hdepth
  have htwo : ((r.runVideoClear now).runCardClear now).Settled := by
    rw [runCardClear]
    split
    · have hclear : Settled { r.runVideoClear now with cardClearDue := none } := hone
      exact hclear.setSurface hdepth' _ _
    · exact hone
  refine (htwo.congr sameMotion_retireFinished.motions).reflow ?_
  rw [sameMotion_retireFinished.panel]
  exact depth_runCardClear.trans hdepth'

theorem Settled.tickHomeReturn (h : r.Settled) (hdepth : r.panel.depth = 0) (outgoing : Bool)
    (now : Instant) :
    (r.tickHomeReturn outgoing now).Settled ∧ (r.tickHomeReturn outgoing now).panel.depth = 0 := by
  rw [RenderLoop.tickHomeReturn]
  split
  · have hrest : r.panel.rest.depth = 0 := depth_rest r.panel hdepth
    rw [restPanel, leaveTo, if_neg (by omega)]
    have hgone : Settled { r with panel := r.panel.rest } := h
    exact ⟨hgone.reflow hrest, hrest⟩
  · exact ⟨h, hdepth⟩

theorem taps_tickHomeReturn (outgoing : Bool) : (r.tickHomeReturn outgoing now).taps = r.taps := by
  have hbegin (driven : Bool) : (r.beginTransition driven outgoing).taps = r.taps := by
    rw [beginTransition]
    split <;> rfl
  rw [tickHomeReturn]
  split
  · rw [restPanel, leaveTo]
    split
    · exact hbegin false
    · rfl
  · rfl

theorem taps_runDueClears : (r.runDueClears now).taps = r.taps := by
  have hset (r : RenderLoop R) (surface : Surface) (present : Bool) :
      (r.setSurface surface present).taps = r.taps := by
    rw [setSurface]
    split <;> rfl
  have hvideo : (r.runVideoClear now).taps = r.taps := by
    rw [runVideoClear]
    split
    · exact hset _ _ _
    · rfl
  have hcard : ((r.runVideoClear now).runCardClear now).taps = (r.runVideoClear now).taps := by
    rw [runCardClear]
    split
    · exact hset _ _ _
    · rfl
  exact sameMotion_retireFinished.taps.trans (hcard.trans hvideo)

/-- The return of a shell that is deeper than Home is a transition. -/
theorem busy_homeReturn (hdue : r.homeReturnDue.any (· ≤ now) = true) (hdepth : 1 < r.panel.depth) :
    (r.tickHomeReturn true now).Busy := by
  have habove : r.panel.above.isSome = true := by
    cases habove : r.panel.above with
    | none => simp [Panel.depth, habove] at hdepth
    | some n => rfl
  rw [tickHomeReturn, if_pos hdue, restPanel, leaveTo, if_pos hdepth]
  have hbegun : (r.beginTransition false true).transition.isSome = true := by
    rw [beginTransition, habove]
    rfl
  exact .inr hbegun

theorem owesFrame_of_busy (h : r.Busy) : r.owesFrame = true := by
  rcases h with h | h <;> simp [owesFrame, h]

section Frame

variable [Float64 R]

/-- What a frame does after its motions were advanced. -/
theorem frame_cases (r : RenderLoop R) (o : Outside R) (now : Instant) :
    ∃ begun ticked, SameMotion (r.beginFrame o now) begun ∧
      SameMotion (begun.tickHomeReturn o.outgoing now) ticked ∧
      r.frame o now = ticked.presentAndServeTaps o.tapsDone now :=
  ⟨(r.beginFrame o now).tickTransport o.painted now, _, sameMotion_tickTransport _,
    sameMotion_tickVisualizer.trans (sameMotion_updateOsd o), rfl⟩

theorem placed_frame (r : RenderLoop R) (o : Outside R) (now : Instant) : (r.frame o now).Placed :=
  (placed_reflow _).congr rfl rfl

/-- A frame that sees what it moves owes another one, or leaves nothing
part-way. -/
theorem seen_frame {o : Outside R} (hplaced : r.Placed) (hseen : Seen (r.beginFrame o now) o now) :
    (r.frame o now).owesFrame = true ∨ (r.frame o now).Settled := by
  have hbegunPlaced := hplaced.beginFrame o now
  have hresting : (r.beginFrame o now).Busy ∨ (r.beginFrame o now).Settled := by
    by_cases hanimating : (r.beginFrame o now).animating = true
    · exact .inl (.inl hanimating)
    · exact .inr (settled_of_not_animating o (Bool.eq_false_iff.mpr hanimating))
  obtain ⟨begun, ticked, hbegun, hticked, hframe⟩ := frame_cases r o now
  have hresting' : begun.Busy ∨ begun.Settled :=
    hresting.imp (·.congr hbegun.animating hbegun.transition) (·.congr hbegun.motions)
  have hbusy (h : begun.Busy) : (r.frame o now).owesFrame = true := by
    have hreturned := h.tickHomeReturn o.outgoing now
    have hdone := (hreturned.congr hticked.animating hticked.transition).runDueClears now
    rw [hframe]
    exact owesFrame_of_busy (hdone.congr rfl rfl)
  rcases hseen.congr hbegun with h | htaps | hdepth | ⟨hdue, hdeep, hdrawn⟩ | ⟨hdue, hvideo, hcard⟩
  · exact .inl (hbusy h)
  · left
    have hleft : (ticked.runDueClears now).taps = begun.taps := by
      rw [taps_runDueClears, hticked.taps, taps_tickHomeReturn]
    have hmore : (r.frame o now).taps ≠ 0 := by
      rw [hframe]
      change (ticked.runDueClears now).taps - o.tapsDone ≠ 0
      omega
    simp [owesFrame, hmore]
  · rcases hresting' with h | hsettled
    · exact .inl (hbusy h)
    · right
      obtain ⟨hreturned, hdepth'⟩ := hsettled.tickHomeReturn hdepth o.outgoing now
      rw [hframe]
      refine Settled.congr (r := (ticked.runDueClears now).reflowSurfaces) ?_ rfl
      refine (hreturned.congr hticked.motions).runDueClears_bare ?_
      rw [hticked.panel]
      exact hdepth'
  · left
    have hreturned := busy_homeReturn hdue hdeep
    rw [← hdrawn] at hreturned
    have hdone := (hreturned.congr hticked.animating hticked.transition).runDueClears now
    rw [hframe]
    exact owesFrame_of_busy (hdone.congr rfl rfl)
  · rcases hresting' with h | hsettled
    · exact .inl (hbusy h)
    · right
      have hstays : begun.tickHomeReturn o.outgoing now = begun := by
        rw [tickHomeReturn, hdue]
        rfl
      rw [hstays] at hticked
      rw [hframe]
      refine Settled.congr (r := (ticked.runDueClears now).reflowSurfaces) ?_ rfl
      refine (hsettled.congr hticked.motions).runDueClears_unmoved ?_ ?_ ?_
      · rw [hticked.videoClearDue, hticked.panel]
        exact hvideo
      · rw [hticked.cardClearDue, hticked.panel]
        exact hcard
      · exact (hbegunPlaced.congr hbegun.panel hbegun.placed).congr hticked.panel hticked.placed

end Frame

/-! ## What stands, and what does not -/

/-- The bars want nothing later that they do not want now. -/
theorem visualizerDue_later {later next : Instant} (hle : now ≤ later)
    (h : r.visualizerDue later = some next) :
    ∃ due, r.visualizerDue now = some due ∧ due ≤ next := by
  rw [visualizerDue] at h ⊢
  cases hvisualizer : r.visualizer with
  | none =>
    rw [hvisualizer] at h
    cases h
  | some analyzer =>
    rw [hvisualizer] at h
    simp only [Option.bind_some] at h ⊢
    split at h
    · rename_i hlater
      obtain ⟨hshowing, hsounding⟩ := Bool.and_eq_true_iff.mp hlater
      have hnow : analyzer.isSounding now = true := by
        rw [Analyzer.isSounding] at hsounding ⊢
        cases hlast : analyzer.lastSound with
        | none =>
          rw [hlast] at hsounding
          cases hsounding
        | some heard =>
          rw [hlast] at hsounding
          have hrecent : later - heard < linger := of_decide_eq_true hsounding
          exact decide_eq_true ((Nat.sub_le_sub_right hle heard).trans_lt hrecent)
      rw [hshowing, hnow]
      refine ⟨_, rfl, ?_⟩
      rw [← Option.some.inj h]
      cases r.barsTicked with
      | none => exact hle
      | some ticked => exact Nat.le_refl _
    · cases h

/-- The deadlines that stand: no pass moves them. -/
def anchored (r : RenderLoop R) : List Instant :=
  [r.videoClearDue, r.cardClearDue, r.homeReturnDue, r.osd.bind (·.nextChange)].filterMap id

variable [Float64 R]

/-- Everything the loop has scheduled, asked at `now`. -/
def Scheduled (r : RenderLoop R) (now t : Instant) : Prop :=
  t ∈ r.anchored ∨ r.transportDue now = some t ∨ r.visualizerDue now = some t

theorem demand_of_resting (h : r.owesFrame = false) (now : Instant) :
    (r.demand now = .idle ∧ ∀ t, ¬ r.Scheduled now t) ∨
      ∃ t, r.demand now = .at t ∧ r.Scheduled now t ∧ ∀ d, r.Scheduled now d → t ≤ d := by
  have hmem (t : Instant) : r.Scheduled now t ↔ t ∈ [r.videoClearDue, r.cardClearDue,
      r.transportDue now, r.visualizerDue now, r.homeReturnDue,
      r.osd.bind (·.nextChange)].filterMap id := by
    simp only [Scheduled, anchored, List.mem_filterMap, List.mem_cons, List.not_mem_nil, id_eq,
      or_false, exists_eq_right]
    constructor
    · rintro ((h | h | h | h) | h | h) <;> simp [← h]
    · rintro (h | h | h | h | h | h) <;> simp [← h]
  rw [demand, h, if_neg Bool.false_ne_true]
  cases hmin : ([r.videoClearDue, r.cardClearDue, r.transportDue now, r.visualizerDue now,
      r.homeReturnDue, r.osd.bind (·.nextChange)].filterMap id).min? with
  | none =>
    refine .inl ⟨rfl, fun t ht => ?_⟩
    rw [hmem, List.min?_eq_none_iff.mp hmin] at ht
    exact List.not_mem_nil ht
  | some t =>
    obtain ⟨ht, hleast⟩ := List.min?_eq_some_iff.mp hmin
    exact .inr ⟨t, rfl, (hmem t).mpr ht, fun d hd => hleast d ((hmem d).mp hd)⟩

end RenderLoop

namespace KioskApp

variable {k : KioskApp R} {now : Instant}

/-- Whether a frame is owed as soon as the display takes one. -/
def owesFrame (k : KioskApp R) : Bool := k.dirty || k.pillSince.isSome || k.render.owesFrame

/-- When the arrow is due to go, asked at `now`. -/
def arrowDue (k : KioskApp R) (now : Instant) : Option Instant :=
  (nextChange (k.pointerUsed.map (now - ·)) k.pointerContact).map (now + ·)

theorem arrowDue_spec {t : Instant} (h : k.arrowDue now = some t) :
    k.pointerContact = false ∧ ∃ used, k.pointerUsed = some used ∧ now - used < hold ∧
      t = now + (hold - (now - used)) := by
  rw [arrowDue, nextChange] at h
  cases hcontact : k.pointerContact with
  | true => simp [hcontact] at h
  | false =>
    cases hused : k.pointerUsed with
    | none => simp [hcontact, hused] at h
    | some used =>
      simp only [hcontact, hused, Option.map_some, Option.bind_some, Bool.false_eq_true,
        if_false] at h
      split at h
      · cases h
      · split at h
        · cases h
        · rename_i hleft
          have hsince : now - used < hold := Nat.lt_of_sub_pos (Nat.pos_of_ne_zero hleft)
          exact ⟨rfl, used, rfl, hsince, (Option.some.inj h).symm⟩

theorem placed_perform (h : k.render.Placed) (now : Instant) (effect : Effect R) :
    (k.perform now effect).render.Placed := by
  cases effect with
  | wakeCursor | sleepCursor | pointerContact down | wakePill => exact h
  | noteTouch => exact h.congr rfl rfl
  | home outgoing => exact RenderLoop.placed_leaveTo _ _ _
  | back | restore | foreground => exact RenderLoop.placed_reflow _
  | push outgoing => exact h.shellPush outgoing
  | pop outgoing => exact h.shellBack outgoing
  | page surface present => exact h.setSurface surface present
  | drive | release springsBack | preview fraction | resize size => exact h.congr rfl rfl

theorem used_le_perform (h : ∀ used, k.pointerUsed = some used → used ≤ now) (effect : Effect R) :
    ∀ used, (k.perform now effect).pointerUsed = some used → used ≤ now := by
  intro used hused
  cases effect with
  | wakeCursor => exact (Option.some.inj hused).ge
  | sleepCursor => cases hused
  | _ => exact h used hused

variable [Float64 R]

/-- Everything the kiosk has scheduled, asked at `now`. -/
def Scheduled (k : KioskApp R) (now t : Instant) : Prop :=
  k.render.Scheduled now t ∨ k.arrowDue now = some t

theorem demand_eq (h : k.owesFrame = false) :
    k.demand now = (k.render.demand now).merge (.deadline (k.arrowDue now)) := by
  have hidle : (k.dirty || k.pillSince.isSome) = false := (Bool.or_eq_false_iff.mp h).1
  rw [demand, hidle, arrowDue]
  cases nextChange (k.pointerUsed.map (now - ·)) k.pointerContact <;>
    cases k.render.demand now <;> rfl

/-- A kiosk that owes no frame asks for the earliest of what it has scheduled.
-/
theorem demand_of_resting (h : k.owesFrame = false) (now : Instant) :
    (k.demand now = .idle ∧ ∀ t, ¬ k.Scheduled now t) ∨
      ∃ t, k.demand now = .at t ∧ k.Scheduled now t ∧ ∀ d, k.Scheduled now d → t ≤ d := by
  have hrender : k.render.owesFrame = false := (Bool.or_eq_false_iff.mp h).2
  rw [demand_eq h]
  rcases RenderLoop.demand_of_resting hrender now with ⟨hd, hnone⟩ | ⟨t, hd, ht, hleast⟩
  · cases harrow : k.arrowDue now with
    | none =>
      refine .inl ⟨by rw [hd]; rfl, ?_⟩
      rintro t (ht | ht)
      · exact hnone t ht
      · rw [harrow] at ht
        cases ht
    | some hide =>
      refine .inr ⟨hide, by rw [hd]; rfl, .inr harrow, ?_⟩
      rintro d (hd | hd)
      · exact absurd hd (hnone d)
      · rw [harrow] at hd
        exact (Option.some.inj hd).le
  · cases harrow : k.arrowDue now with
    | none =>
      refine .inr ⟨t, by rw [hd]; rfl, .inl ht, ?_⟩
      rintro d (hd | hd)
      · exact hleast d hd
      · rw [harrow] at hd
        cases hd
    | some hide =>
      refine .inr ⟨min t hide, by rw [hd]; rfl, ?_, ?_⟩
      · rcases Nat.le_total t hide with hle | hle
        · rw [Nat.min_eq_left hle]
          exact .inl ht
        · rw [Nat.min_eq_right hle]
          exact .inr harrow
      · rintro d (hd | hd)
        · exact (Nat.min_le_left t hide).trans (hleast d hd)
        · rw [harrow] at hd
          exact (Nat.min_le_right t hide).trans (Option.some.inj hd).le

/-- Everything that does not stand is due no earlier than something that does:
the arrow's hide while the arrow is up, the strip's next change, and the bars'
next look. -/
structure Anchored (k : KioskApp R) (now : Instant) : Prop where
  arrow : k.cursorShown = some true → k.pointerContact = false → ∀ used, k.pointerUsed = some used →
    ∃ due ∈ k.render.anchored, due ≤ used + hold
  strip : ∀ next, k.render.transportDue now = some next → ∃ due ∈ k.render.anchored, due ≤ next
  bars : ∀ next, k.render.visualizerDue now = some next → ∃ due ∈ k.render.anchored, due ≤ next

end KioskApp

namespace Loop

variable [Float64 R] {s : Loop R}

/-! ## What a run can count on -/

/-- What a run must meet.  A pass that owes no frame finds everything anchored,
sound that begins while the loop sleeps finds the bars anchored, and a frame
sees what it moves. -/
def Meets (s : Loop R) : Step R → Prop
  | .aboutToWait => s.kiosk.owesFrame = false → s.kiosk.Anchored s.now
  | .hear => ∀ asked until_, s.turn = .sleeping asked until_ → ∀ next,
      s.hear.kiosk.render.visualizerDue s.now = some next →
      ∃ due ∈ s.kiosk.render.anchored, due ≤ next
  | .redraw outside _ =>
    (s.kiosk.render.beginFrame outside s.now).Seen outside s.now
  | .advance _ => True
  | .event _ => True

/-- What is drawn is what its policy says.  The strip may have fallen behind,
but not past the instant that was named when the loop asked. -/
structure Agrees (s : Loop R) (asked : Instant) : Prop where
  arrow : s.kiosk.cursorShown =
    some (shown (s.kiosk.pointerUsed.map (s.now - ·)) s.kiosk.pointerContact)
  strip : ∀ state target, s.kiosk.render.transport = some state →
    state.showing s.now = some target → state.stale target = true →
    ∀ named, s.kiosk.render.transportDue asked = some named → s.now < named
  videoClear : ∀ due, s.kiosk.render.videoClearDue = some due → s.now < due
  cardClear : ∀ due, s.kiosk.render.cardClearDue = some due → s.now < due
  homeReturn : ∀ due, s.kiosk.render.homeReturnDue = some due → s.now < due
  banner : ∀ due, s.kiosk.render.osd.bind (·.nextChange) = some due → s.now < due
  bars : ∀ due, s.kiosk.render.visualizerDue s.now = some due → s.now < due
  settled : s.kiosk.render.Settled

/-- A loop that sleeps has drawn what it should for as long as it sleeps, and
the first pass from the instant it named on asks for a redraw. -/
structure Prompt (s : Loop R) : Prop where
  wakes : ∀ asked until_, s.turn = .sleeping asked (some until_) → until_ ≤ s.now →
    s.aboutToWait = .redraw
  agrees : ∀ asked until_, s.turn = .sleeping asked until_ →
    (∀ t, until_ = some t → s.now < t) → s.Agrees asked
  paced : ∀ due, s.turn = .capped due → due ≤ s.now → s.aboutToWait = .redraw

/-! ## What the loop knows when it sleeps -/

/-- What holds of a loop from the pass that put it to sleep on. -/
structure Asleep (s : Loop R) (asked : Instant) (until_ : Option Instant) : Prop where
  owes : s.kiosk.owesFrame = false
  asked_le : asked ≤ s.now
  named : ∀ t, until_ = some t → ∃ due ∈ s.kiosk.render.anchored, due ≤ t
  anchored : ∀ due ∈ s.kiosk.render.anchored, ∃ t, until_ = some t ∧ t ≤ due
  arrow : s.kiosk.cursorShown = some true → s.kiosk.pointerContact = false →
    ∀ used, s.kiosk.pointerUsed = some used → ∃ due ∈ s.kiosk.render.anchored, due ≤ used + hold
  strip : ∀ next, s.kiosk.render.transportDue asked = some next →
    ∃ due ∈ s.kiosk.render.anchored, due ≤ next
  bars : ∀ next, s.kiosk.render.visualizerDue s.now = some next →
    ∃ due ∈ s.kiosk.render.anchored, due ≤ next

/-- The invariant of a run. -/
structure Kept (s : Loop R) : Prop where
  placed : s.kiosk.render.Placed
  used_le : ∀ used, s.kiosk.pointerUsed = some used → used ≤ s.now
  drawn : s.kiosk.dirty = false → ∃ drawn ≤ s.now, s.kiosk.cursorShown =
    some (shown (s.kiosk.pointerUsed.map (drawn - ·)) s.kiosk.pointerContact)
  settled : s.kiosk.dirty = false → s.kiosk.render.owesFrame = false → s.kiosk.render.Settled
  asleep : ∀ asked until_, s.turn = .sleeping asked until_ → s.Asleep asked until_
  capped : ∀ due, s.turn = .capped due →
    s.kiosk.owesFrame = true ∧ s.kiosk.nextFrameAt = some due

theorem demand_of_owing {k : KioskApp R} {now : Instant} (h : k.owesFrame = true) :
    k.demand now = .frame := by
  have hmerged : ((if k.dirty || k.pillSince.isSome then Demand.frame else .idle).merge
      (k.render.demand now)) = .frame := by
    rcases Bool.or_eq_true_iff.mp h with h | h
    · rw [h]
      cases k.render.demand now <;> rfl
    · have hrender : k.render.demand now = .frame := by
        rw [RenderLoop.demand, h]
        rfl
      rw [hrender]
      cases (k.dirty || k.pillSince.isSome) <;> rfl
  rw [KioskApp.demand, hmerged]
  cases nextChange (k.pointerUsed.map (now - ·)) k.pointerContact <;> rfl

/-- A deadline that stands and has come asks for a redraw. -/
theorem redraw_of_anchored (howes : s.kiosk.owesFrame = false) {due : Instant}
    (hdue : due ∈ s.kiosk.render.anchored) (hcome : due ≤ s.now) : s.aboutToWait = .redraw := by
  have hscheduled : s.kiosk.Scheduled s.now due := .inl (.inl hdue)
  rcases KioskApp.demand_of_resting howes s.now with ⟨-, hnone⟩ | ⟨t, hd, -, hleast⟩
  · exact absurd hscheduled (hnone due)
  · rw [aboutToWait, hd]
    exact if_pos ((hleast due hscheduled).trans hcome)

theorem Kept.prompt (h : s.Kept) : s.Prompt where
  wakes := fun asked until_ hturn hcome => by
    have hasleep := h.asleep asked (some until_) hturn
    obtain ⟨due, hdue, hle⟩ := hasleep.named until_ rfl
    exact redraw_of_anchored hasleep.owes hdue (hle.trans hcome)
  paced := fun due hturn hcome => by
    obtain ⟨howes, hnext⟩ := h.capped due hturn
    have hfilter : s.kiosk.nextFrameAt.filter (s.now < ·) = none := by
      rw [hnext, Option.filter_some, if_neg]
      simpa using hcome
    rw [aboutToWait, demand_of_owing howes]
    simp only [hfilter]
  agrees := fun asked until_ hturn hearly => by
    have hasleep := h.asleep asked until_ hturn
    have hdirty : s.kiosk.dirty = false :=
      (Bool.or_eq_false_iff.mp (Bool.or_eq_false_iff.mp hasleep.owes).1).1
    -- Everything that stands is still to come.
    have hcoming (due : Instant) (hdue : due ∈ s.kiosk.render.anchored) : s.now < due := by
      obtain ⟨t, ht, hle⟩ := hasleep.anchored due hdue
      exact (hearly t ht).trans_le hle
    have hstands (slot : Option Instant) (hslot : slot ∈ [s.kiosk.render.videoClearDue,
        s.kiosk.render.cardClearDue, s.kiosk.render.homeReturnDue,
        s.kiosk.render.osd.bind (·.nextChange)]) (due : Instant) (hdue : slot = some due) :
        s.now < due :=
      hcoming due (List.mem_filterMap.mpr ⟨slot, hslot, hdue⟩)
    refine ⟨?_, ?_, hstands _ (by simp), hstands _ (by simp), hstands _ (by simp),
      hstands _ (by simp), ?_, h.settled hdirty (Bool.or_eq_false_iff.mp hasleep.owes).2⟩
    · obtain ⟨drawn, hdrawn, hcursor⟩ := h.drawn hdirty
      rw [hcursor]
      congr 1
      cases hcontact : s.kiosk.pointerContact with
      | true => rfl
      | false =>
        cases hused : s.kiosk.pointerUsed with
        | none => rfl
        | some used =>
          simp only [shown, Option.map_some, Option.any_some, Bool.false_or]
          by_cases hshown : drawn - used < hold
          · have hup : s.kiosk.cursorShown = some true := by
              rw [hcursor, hused, hcontact]
              simp [shown, hshown]
            obtain ⟨due, hdue, hle⟩ := hasleep.arrow hup hcontact used hused
            have hlater := hcoming due hdue
            have hused_le := h.used_le used hused
            have hstill : s.now - used < hold := by
              have : s.now < used + hold := hlater.trans_le hle
              exact Nat.sub_lt_left_of_lt_add hused_le this
            rw [decide_eq_true hshown, decide_eq_true hstill]
          · have hgone : ¬ s.now - used < hold := fun hlt =>
              hshown ((Nat.sub_le_sub_right hdrawn used).trans_lt hlt)
            rw [decide_eq_false hshown, decide_eq_false hgone]
    · intro state target _ _ _ named hnamed
      obtain ⟨due, hdue, hle⟩ := hasleep.strip named hnamed
      exact (hcoming due hdue).trans_le hle
    · intro next hnext
      obtain ⟨due, hdue, hle⟩ := hasleep.bars next hnext
      exact (hcoming due hdue).trans_le hle

/-! ## What a step keeps -/

theorem Kept.event (h : s.Kept) (effects : List (Effect R)) : (s.step (.event effects)).Kept := by
  have hboth : (effects.foldl (fun k effect => k.perform s.now effect) s.kiosk).render.Placed ∧
      ∀ used, (effects.foldl (fun k effect => k.perform s.now effect) s.kiosk).pointerUsed =
        some used → used ≤ s.now := by
    refine List.foldlRecOn (motive := fun k : KioskApp R => k.render.Placed ∧
      ∀ used, k.pointerUsed = some used → used ≤ s.now) effects _ ⟨h.placed, h.used_le⟩ ?_
    intro k hk effect _
    exact ⟨KioskApp.placed_perform hk.1 s.now effect, KioskApp.used_le_perform hk.2 effect⟩
  exact ⟨hboth.1, hboth.2, nofun, nofun, nofun, nofun⟩

theorem Kept.redraw (h : s.Kept) {outside : Outside R} (pillDrawn : Bool)
    (hseen : (s.kiosk.render.beginFrame outside s.now).Seen outside s.now) :
    (s.step (.redraw outside pillDrawn)).Kept := by
  have hrender : (s.kiosk.redraw outside pillDrawn s.now).render =
      s.kiosk.render.frame outside s.now := by
    rw [KioskApp.redraw, KioskApp.tickPill]
    dsimp only
    split
    · rfl
    · split <;> rfl
  have hcursor : (s.kiosk.redraw outside pillDrawn s.now).pointerUsed = s.kiosk.pointerUsed ∧
      (s.kiosk.redraw outside pillDrawn s.now).pointerContact = s.kiosk.pointerContact ∧
      (s.kiosk.redraw outside pillDrawn s.now).cursorShown =
        some (shown (s.kiosk.pointerUsed.map (s.now - ·)) s.kiosk.pointerContact) := by
    rw [KioskApp.redraw, KioskApp.tickPill]
    dsimp only
    split
    · exact ⟨rfl, rfl, rfl⟩
    · split <;> exact ⟨rfl, rfl, rfl⟩
  refine ⟨?_, ?_, ?_, ?_, nofun, nofun⟩
  · change (s.kiosk.redraw outside pillDrawn s.now).render.Placed
    rw [hrender]
    exact RenderLoop.placed_frame _ _ _
  · change ∀ used, (s.kiosk.redraw outside pillDrawn s.now).pointerUsed = some used → used ≤ s.now
    rw [hcursor.1]
    exact h.used_le
  · intro _
    refine ⟨s.now, Nat.le_refl _, ?_⟩
    change (s.kiosk.redraw outside pillDrawn s.now).cursorShown = some (shown
      ((s.kiosk.redraw outside pillDrawn s.now).pointerUsed.map (s.now - ·))
      (s.kiosk.redraw outside pillDrawn s.now).pointerContact)
    rw [hcursor.1, hcursor.2.1, hcursor.2.2]
  · intro _
    change (s.kiosk.redraw outside pillDrawn s.now).render.owesFrame = false →
      (s.kiosk.redraw outside pillDrawn s.now).render.Settled
    rw [hrender]
    intro howes
    rcases RenderLoop.seen_frame h.placed hseen with hframe | hsettled
    · rw [hframe] at howes
      cases howes
    · exact hsettled

/-- **What a pass decides.**  It asks for a redraw, waits for the display, or
sleeps until the earliest of what is scheduled. -/
theorem aboutToWait_cases (s : Loop R) : s.aboutToWait = .redraw ∨
    (∃ due, s.aboutToWait = .capped due ∧ s.kiosk.owesFrame = true ∧
      s.kiosk.nextFrameAt = some due) ∨
    (∃ until_, s.aboutToWait = .sleeping s.now until_ ∧ s.kiosk.owesFrame = false ∧
      (∀ t, until_ = some t → s.kiosk.Scheduled s.now t) ∧
      ∀ due, s.kiosk.Scheduled s.now due → ∃ t, until_ = some t ∧ t ≤ due) := by
  cases howes : s.kiosk.owesFrame with
  | true =>
    rw [aboutToWait, demand_of_owing howes]
    dsimp only
    cases hnext : s.kiosk.nextFrameAt.filter (s.now < ·) with
    | none => exact .inl rfl
    | some due => exact .inr (.inl ⟨due, rfl, rfl, (Option.filter_eq_some_iff.mp hnext).1⟩)
  | false =>
    rcases KioskApp.demand_of_resting howes s.now with ⟨hd, hnone⟩ | ⟨t, hd, ht, hleast⟩
    · rw [aboutToWait, hd]
      exact .inr (.inr ⟨none, rfl, rfl, nofun, fun due hdue => absurd hdue (hnone due)⟩)
    · rw [aboutToWait, hd]
      dsimp only
      split
      · exact .inl rfl
      · refine .inr (.inr ⟨some t, rfl, rfl, ?_, fun due hdue => ⟨t, rfl, hleast due hdue⟩⟩)
        rintro _ ⟨⟩
        exact ht

theorem Kept.aboutToWait (h : s.Kept)
    (hmeets : s.kiosk.owesFrame = false → s.kiosk.Anchored s.now) : (s.step .aboutToWait).Kept := by
  refine ⟨h.placed, h.used_le, h.drawn, h.settled, fun asked until_ hturn => ?_,
    fun due hturn => ?_⟩
  · change s.aboutToWait = .sleeping asked until_ at hturn
    rcases s.aboutToWait_cases with hredraw | ⟨due, hcapped, -⟩ |
      ⟨until_', hsleeps, howes, hnamed, hleast⟩
    · rw [hredraw] at hturn
      cases hturn
    · rw [hcapped] at hturn
      cases hturn
    · rw [hsleeps] at hturn
      cases hturn
      have hanchored := hmeets howes
      have hdirty : s.kiosk.dirty = false :=
        (Bool.or_eq_false_iff.mp (Bool.or_eq_false_iff.mp howes).1).1
      refine ⟨howes, Nat.le_refl _, fun t ht => ?_, fun due hdue => hleast due (.inl (.inl hdue)),
        hanchored.arrow, hanchored.strip, hanchored.bars⟩
      rcases hnamed t ht with (hdue | hstrip | hbars) | harrow
      · exact ⟨t, hdue, Nat.le_refl t⟩
      · exact hanchored.strip t hstrip
      · exact hanchored.bars t hbars
      · -- The arrow is up while its hide is due, for it was drawn no later than now.
        obtain ⟨hcontact, used, hused, hsince, rfl⟩ := KioskApp.arrowDue_spec harrow
        obtain ⟨drawn, hdrawn, hcursor⟩ := h.drawn hdirty
        have hup : s.kiosk.cursorShown = some true := by
          rw [hcursor, hused, hcontact]
          have hshown : drawn - used < hold := (Nat.sub_le_sub_right hdrawn used).trans_lt hsince
          simp [shown, hshown]
        obtain ⟨due, hdue, hle⟩ := hanchored.arrow hup hcontact used hused
        have hused_le := h.used_le used hused
        have hhide : used + hold ≤ s.now + (hold - (s.now - used)) := by
          have : s.now - used + (hold - (s.now - used)) = hold := Nat.add_sub_cancel' hsince.le
          calc used + hold
              = used + (s.now - used + (hold - (s.now - used))) := by rw [this]
            _ = s.now + (hold - (s.now - used)) := by
                rw [← Nat.add_assoc, Nat.add_sub_cancel' hused_le]
            _ ≤ _ := Nat.le_refl _
        exact ⟨due, hdue, hle.trans hhide⟩
  · change s.aboutToWait = .capped due at hturn
    rcases s.aboutToWait_cases with hredraw | ⟨due', hcapped, howes, hnext⟩ | ⟨_, hsleeps, -⟩
    · rw [hredraw] at hturn
      cases hturn
    · rw [hcapped] at hturn
      cases hturn
      exact ⟨howes, hnext⟩
    · rw [hsleeps] at hturn
      cases hturn

theorem Kept.advance (h : s.Kept) (elapsed : Duration) : (s.step (.advance elapsed)).Kept := by
  have hlater : s.now ≤ s.now + elapsed := Nat.le_add_right _ _
  refine ⟨h.placed, fun used hused => (h.used_le used hused).trans hlater, fun hdirty => ?_,
    h.settled, fun asked until_ hturn => ?_, h.capped⟩
  · obtain ⟨drawn, hdrawn, hcursor⟩ := h.drawn hdirty
    exact ⟨drawn, hdrawn.trans hlater, hcursor⟩
  · have hasleep := h.asleep asked until_ hturn
    refine ⟨hasleep.owes, hasleep.asked_le.trans hlater, hasleep.named, hasleep.anchored,
      hasleep.arrow, hasleep.strip, fun next hnext => ?_⟩
    obtain ⟨due, hdue, hle⟩ := RenderLoop.visualizerDue_later hlater hnext
    obtain ⟨anchor, hanchor, hle'⟩ := hasleep.bars due hdue
    exact ⟨anchor, hanchor, hle'.trans hle⟩

theorem Kept.hear (h : s.Kept) (hmeets : s.Meets .hear) : (s.step .hear).Kept := by
  refine ⟨h.placed.congr rfl rfl, h.used_le, h.drawn, h.settled, fun asked until_ hturn => ?_,
    h.capped⟩
  have hasleep := h.asleep asked until_ hturn
  exact ⟨hasleep.owes, hasleep.asked_le, hasleep.named, hasleep.anchored, hasleep.arrow,
    hasleep.strip, fun next hnext => hmeets asked until_ hturn next hnext⟩

theorem Kept.step (h : s.Kept) {move : Step R} (hmeets : s.Meets move) : (s.step move).Kept := by
  cases move with
  | advance elapsed => exact h.advance elapsed
  | event effects => exact h.event effects
  | hear => exact h.hear hmeets
  | aboutToWait => exact h.aboutToWait hmeets
  | redraw outside pillDrawn => exact h.redraw pillDrawn hmeets

/-! ## Runs -/

/-- A kiosk whose window has just come up: with or without a Home, bars and
banners, and with nothing on the glass. -/
def fresh (size : ℕ × ℕ) (frameInterval : Duration) (home : Bool) (visualizer : Option Analyzer)
    (osd : Option OsdController) : Loop R where
  kiosk := {
    render := { size, visualizer, osd, panel := { above := if home then some 0 else none } }
    frameInterval }

theorem kept_fresh (size : ℕ × ℕ) (frameInterval : Duration) (home : Bool)
    (visualizer : Option Analyzer) (osd : Option OsdController) :
    (fresh size frameInterval home visualizer osd : Loop R).Kept := by
  refine ⟨?_, nofun, nofun, nofun, nofun, nofun⟩
  funext surface
  cases surface <;> rfl

/-- **In a run that meets its conditions the panel never sleeps through a change
it owes.**  While it sleeps what is drawn is what it should be, and from the
instant it named on the first pass asks for a redraw. -/
theorem prompt_run (size : ℕ × ℕ) (frameInterval : Duration) (home : Bool)
    (visualizer : Option Analyzer) (osd : Option OsdController) (moves : List (Step R))
    (hmeets : Along step Meets moves (fresh size frameInterval home visualizer osd)) :
    ∀ k ≤ moves.length,
      ((moves.take k).foldl step (fresh size frameInterval home visualizer osd)).Prompt := by
  intro k _
  have hfirst : Along step Meets (moves.take k) (fresh size frameInterval home visualizer osd) := by
    rw [← List.take_append_drop k moves, along_append] at hmeets
    exact hmeets.1
  have hkept : ((moves.take k).foldl step (fresh size frameInterval home visualizer osd)).Kept :=
    hfirst.foldl Kept (kept_fresh _ _ _ _ _) fun s move hs hmove => hs.step hmove
  exact hkept.prompt

/-- Whole numbers, on which the strip's arithmetic below is exact. -/
structure Whole where
  value : ℕ
  deriving DecidableEq

instance : Float64 Whole where
  zero := ⟨0⟩
  one := ⟨1⟩
  add a b := ⟨a.value + b.value⟩
  sub a b := ⟨a.value - b.value⟩
  div a b := ⟨a.value / b.value⟩
  min a b := ⟨min a.value b.value⟩
  lt a b := a.value < b.value
  asSecs d := ⟨d / secs 1⟩
  mulDuration d a := d * a.value
  divDuration d a := d / a.value

/-- A mouse is moved while a banner is up that goes before the arrow does. -/
def bannerUp : List (Step Whole) :=
  [.redraw { banners := [.show (some (secs 1))] } true, .event [.wakeCursor], .redraw {} true,
    .aboutToWait, .advance (secs 1), .aboutToWait]

theorem prompt_bannerUp :
    (bannerUp.foldl step (fresh (1920, 1080) 16666667 true none (some {}))).Prompt := by
  have hall := prompt_run (1920, 1080) 16666667 true none (some {}) bannerUp ?_ bannerUp.length
    (Nat.le_refl _)
  · rwa [List.take_length] at hall
  · refine ⟨?_, trivial, ?_, fun _ => ⟨fun _ _ used hused => ?_, nofun, nofun⟩, trivial,
      fun _ => ⟨fun _ _ used hused => ?_, nofun, nofun⟩, trivial⟩
    · exact .inr (.inr (.inr (.inr ⟨rfl, nofun, nofun⟩)))
    · exact .inr (.inr (.inr (.inr ⟨rfl, nofun, nofun⟩)))
    · obtain rfl : 0 = used := Option.some.inj hused
      exact ⟨secs 1, List.mem_singleton.mpr rfl, by decide⟩
    · obtain rfl : 0 = used := Option.some.inj hused
      exact ⟨secs 1, List.mem_singleton.mpr rfl, by decide⟩

/-! ## Four runs that oversleep -/

def wallPanel : Loop Whole := fresh (1920, 1080) 16666667 true (some {}) none

def parkedArrow : Loop Whole :=
  [.event [.wakeCursor], .redraw {} true, .aboutToWait, .advance hold].foldl step wallPanel

/-- A track of 100 seconds plays, with a bar of 100 pixels. -/
def playingTrack : Loop Whole :=
  [.redraw { commands := [.nowPlaying ⟨.playing, [], some 0, some (secs 100)⟩ (some ⟨100⟩) true true
      true] } true, .aboutToWait, .advance (secs 1)].foldl step wallPanel

/-- The last sound of a session is 980 milliseconds old. -/
def fadingBars : Loop Whole :=
  [.redraw { commands := [.nowPlaying ⟨.paused, [.playPause], none, none⟩ none true true true] } true,
    .hear, .advance (millis 980), .redraw {} true, .aboutToWait,
    .advance (millis 33)].foldl step wallPanel

def endedVideo : Loop Whole :=
  [.redraw { commands := [.video 1 true] } true, .redraw { commands := [.clearVideo 1] } true,
    .aboutToWait, .advance clearGrace, .aboutToWait, .redraw {} true, .aboutToWait].foldl step wallPanel

/-- The arrow, the strip and the bars are slept through, and a video that has
ended stays on the glass. -/
theorem overslept :
    ¬ parkedArrow.Prompt ∧ ¬ playingTrack.Prompt ∧ ¬ fadingBars.Prompt ∧ ¬ endedVideo.Prompt := by
  refine ⟨fun h => ?_, fun h => ?_, fun h => ?_, fun h => ?_⟩
  · have hwakes := h.wakes 0 hold (by decide +kernel) (by decide +kernel)
    revert hwakes
    decide +kernel
  · have hwakes := h.wakes 0 (secs 1) (by decide +kernel) (by decide +kernel)
    revert hwakes
    decide +kernel
  · have hwakes := h.wakes (millis 980) (millis 1013) (by decide +kernel) (by decide +kernel)
    revert hwakes
    decide +kernel
  · have hsettled := (h.agrees clearGrace none (by decide +kernel) nofun).settled .video
    revert hsettled
    decide +kernel

end Loop

end Castaway.Kiosk
