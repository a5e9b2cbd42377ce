import Castaway.Kiosk.Router
import Mathlib.Data.List.Forall2
import Mathlib.Data.List.Induction
import Mathlib.Data.Set.Basic

/-!
# Input from the network

What remote peers do is queued for the loop, which takes everything that waits
whenever it runs.  Two things keep the queue small: a full queue refuses moves,
keys and text (`push`), and of a contact's moves only the last of a run is
handed on (`coalesceMoves`).

Nothing else is ever dropped, so whatever ends a contact arrives, and in its
place.  For the same reason nothing else is bounded: what waits is as much as
was pushed of it since the last drain, give or take the room of the queue
(`waiting_bounded_iff`).
-/

namespace Castaway.Input

open Castaway.Kiosk (ContactId InputOrigin TouchPhase)
open List

/-! ## Events -/

/-- A contact's update, in coordinates `F`. -/
structure TouchEvent (F : Type*) where
  id : ContactId
  phase : TouchPhase
  x : F
  y : F
  deriving DecidableEq

inductive PointerButton where
  | left
  | middle
  | right
  deriving DecidableEq

inductive PointerEvent (F : Type*) where
  | move (x y : F)
  | button (x y : F) (button : PointerButton) (down : Bool)
  | wheel (x y dx dy : F)
  deriving DecidableEq

inductive Key where
  | enter
  | backspace
  | delete
  | tab
  | arrowUp
  | arrowDown
  | arrowLeft
  | arrowRight
  deriving DecidableEq

inductive Routable (F : Type*) where
  | touch (touch : TouchEvent F)
  | pointer (pointer : PointerEvent F)
  deriving DecidableEq

/-- One thing a remote peer did. -/
inductive RemoteEvent (F : Type*) where
  | input (input : Routable F)
  | gone (origin : InputOrigin)
  | home
  | key (key : Key)
  | text (text : String)
  deriving DecidableEq

variable {F : Type*}

/-! ## The queue -/

/-- How many events may wait before the droppable ones are refused. -/
def maxPending : ℕ := 4096

/-- A move, a key or text. -/
def isDroppable : RemoteEvent F → Bool
  | .input (.touch touch) => touch.phase = .move
  | .key _ => true
  | .text _ => true
  | .input (.pointer _) => false
  | .gone _ => false
  | .home => false

def push (pending : List (RemoteEvent F)) (event : RemoteEvent F) : List (RemoteEvent F) :=
  if maxPending ≤ pending.length ∧ isDroppable event = true then pending else pending ++ [event]

/-- Walk a batch backwards: what is kept of it, and the contacts whose next
event is a move. -/
def coalesceFrom : List (RemoteEvent F) → List (RemoteEvent F) × List ContactId
  | [] => ([], [])
  | .input (.touch touch) :: later =>
    let walked := coalesceFrom later
    if touch.phase = .move then
      if touch.id ∈ walked.2 then walked
      else (.input (.touch touch) :: walked.1, touch.id :: walked.2)
    else (.input (.touch touch) :: walked.1, walked.2.filter (· ≠ touch.id))
  | event :: later =>
    let walked := coalesceFrom later
    (event :: walked.1, walked.2)

/-- Drop every move that a later move of the same batch supersedes. -/
def coalesceMoves (batch : List (RemoteEvent F)) : List (RemoteEvent F) := (coalesceFrom batch).1

/-! ## Runs -/

inductive QueueOp (F : Type*) where
  | push (event : RemoteEvent F)
  | drain
  deriving DecidableEq

structure RemoteInputQueue (F : Type*) where
  pending : List (RemoteEvent F) := []
  drained : List (List (RemoteEvent F)) := []

namespace RemoteInputQueue

def step (queue : RemoteInputQueue F) : QueueOp F → RemoteInputQueue F
  | .push event => { queue with pending := Input.push queue.pending event }
  | .drain => { pending := [], drained := queue.drained ++ [coalesceMoves queue.pending] }

def run (ops : List (QueueOp F)) : RemoteInputQueue F := ops.foldl step {}

end RemoteInputQueue

/-! ## What becomes of what is pushed -/

def MovesNext (id : ContactId) (later : List (RemoteEvent F)) : Prop :=
  ∃ middle next after, later = middle ++ .input (.touch next) :: after ∧
    (next.id = id ∧ next.phase = .move) ∧
      ∀ touch, .input (.touch touch) ∈ middle → touch.id ≠ id

/-- A move with another one behind it and no other phase of the contact between.
-/
def Superseded (event : RemoteEvent F) (later : List (RemoteEvent F)) : Prop :=
  ∃ touch, event = .input (.touch touch) ∧ touch.phase = .move ∧ MovesNext touch.id later

/-- A batch, without what is superseded in it. -/
inductive Coalesced : List (RemoteEvent F) → List (RemoteEvent F) → Prop
  | nil : Coalesced [] []
  | kept {event : RemoteEvent F} {later out : List (RemoteEvent F)} (h : Coalesced later out)
      (hkept : ¬ Superseded event later) : Coalesced (event :: later) (event :: out)
  | superseded {event : RemoteEvent F} {later out : List (RemoteEvent F)}
      (h : Coalesced later out) (hsuperseded : Superseded event later) :
      Coalesced (event :: later) out

/-- What was pushed, without the droppable events that met a full queue. -/
inductive Admitted : List (RemoteEvent F) → List (RemoteEvent F) → Prop
  | nil : Admitted [] []
  | taken {pushed waiting : List (RemoteEvent F)} {event : RemoteEvent F}
      (h : Admitted pushed waiting)
      (htaken : waiting.length < maxPending ∨ isDroppable event = false) :
      Admitted (pushed ++ [event]) (waiting ++ [event])
  | refused {pushed waiting : List (RemoteEvent F)} {event : RemoteEvent F}
      (h : Admitted pushed waiting) (hfull : maxPending ≤ waiting.length)
      (hdroppable : isDroppable event = true) : Admitted (pushed ++ [event]) waiting

/-- What was pushed from one drain to the next, and since the last one. -/
def batches (ops : List (QueueOp F)) : List (List (RemoteEvent F)) × List (RemoteEvent F) :=
  ops.foldl (fun found op =>
    match op with
    | .push event => (found.1, found.2 ++ [event])
    | .drain => (found.1 ++ [found.2], [])) ([], [])

def pushes (ops : List (QueueOp F)) : List (RemoteEvent F) :=
  (batches ops).1.flatten ++ (batches ops).2

variable {batch later out pushed waiting : List (RemoteEvent F)} {event : RemoteEvent F}
  {id : ContactId}

/-! ### A batch -/

theorem movesNext_nil : ¬ MovesNext id ([] : List (RemoteEvent F)) := by
  rintro ⟨middle, next, after, hsplit, -⟩
  simp at hsplit

/-- The first event of a batch decides, if it is one of the contact. -/
theorem movesNext_touch (touch : TouchEvent F) :
    MovesNext id (.input (.touch touch) :: later) ↔
      if touch.id = id then touch.phase = .move else MovesNext id later := by
  constructor
  · rintro ⟨middle, next, after, hsplit, ⟨hid, hmove⟩, hother⟩
    cases middle with
    | nil =>
      cases hsplit
      rw [if_pos hid]
      exact hmove
    | cons first middle =>
      cases hsplit
      rw [if_neg (hother touch mem_cons_self)]
      exact ⟨middle, next, after, rfl, ⟨hid, hmove⟩, fun t ht =>
        hother t (mem_cons_of_mem _ ht)⟩
  · intro h
    by_cases hid : touch.id = id
    · rw [if_pos hid] at h
      exact ⟨[], touch, later, rfl, ⟨hid, h⟩, fun t ht => absurd ht not_mem_nil⟩
    · rw [if_neg hid] at h
      obtain ⟨middle, next, after, rfl, hnext, hother⟩ := h
      refine ⟨.input (.touch touch) :: middle, next, after, rfl, hnext, fun t ht => ?_⟩
      rcases mem_cons.mp ht with heq | hmem
      · cases heq
        exact hid
      · exact hother t hmem

theorem movesNext_other (h : ∀ touch, event ≠ .input (.touch touch)) :
    MovesNext id (event :: later) ↔ MovesNext id later := by
  constructor
  · rintro ⟨middle, next, after, hsplit, hnext, hother⟩
    cases middle with
    | nil =>
      cases hsplit
      exact absurd rfl (h next)
    | cons first middle =>
      cases hsplit
      exact ⟨middle, next, after, rfl, hnext, fun t ht => hother t (mem_cons_of_mem _ ht)⟩
  · rintro ⟨middle, next, after, rfl, hnext, hother⟩
    refine ⟨event :: middle, next, after, rfl, hnext, fun t ht => ?_⟩
    rcases mem_cons.mp ht with heq | hmem
    · exact absurd heq.symm (h t)
    · exact hother t hmem

theorem not_superseded_other (h : ∀ touch, event ≠ .input (.touch touch)) :
    ¬ Superseded event later := fun ⟨touch, heq, _⟩ => h touch heq

theorem superseded_touch (touch : TouchEvent F) :
    Superseded (.input (.touch touch)) later ↔ touch.phase = .move ∧ MovesNext touch.id later := by
  constructor
  · rintro ⟨touch', heq, h⟩
    cases heq
    exact h
  · exact fun h => ⟨touch, rfl, h⟩

theorem coalesceFrom_other (h : ∀ touch, event ≠ .input (.touch touch)) :
    coalesceFrom (event :: later) =
      (event :: (coalesceFrom later).1, (coalesceFrom later).2) := by
  cases event with
  | input input =>
    cases input with
    | touch touch => exact absurd rfl (h touch)
    | pointer pointer => rfl
  | gone origin | home | key key | text text => rfl

/-- The contacts that a backward walk remembers, and what it keeps. -/
theorem coalesceFrom_spec (batch : List (RemoteEvent F)) :
    (∀ id, id ∈ (coalesceFrom batch).2 ↔ MovesNext id batch) ∧
      Coalesced batch (coalesceFrom batch).1 := by
  induction batch with
  | nil =>
    refine ⟨fun id => ⟨fun h => absurd h not_mem_nil, fun h => ?_⟩, .nil⟩
    exact absurd h movesNext_nil
  | cons event later ih =>
    obtain ⟨hseen, hcoalesced⟩ := ih
    by_cases htouch : ∃ touch, event = .input (.touch touch)
    · obtain ⟨touch, rfl⟩ := htouch
      rw [coalesceFrom]
      by_cases hmove : touch.phase = .move
      · rw [if_pos hmove]
        by_cases hmem : touch.id ∈ (coalesceFrom later).2
        · rw [if_pos hmem]
          have hnext := (hseen touch.id).mp hmem
          have hdead := (superseded_touch touch).mpr ⟨hmove, hnext⟩
          refine ⟨fun id => ?_, .superseded hcoalesced hdead⟩
          rw [hseen id, movesNext_touch]
          by_cases hid : touch.id = id
          · rw [if_pos hid]
            exact ⟨fun _ => hmove, fun _ => hid ▸ hnext⟩
          · rw [if_neg hid]
        · rw [if_neg hmem]
          have hnext : ¬ MovesNext touch.id later := fun h => hmem ((hseen touch.id).mpr h)
          refine ⟨fun id => ?_, .kept hcoalesced fun h => hnext ((superseded_touch touch).mp h).2⟩
          rw [mem_cons, hseen id, movesNext_touch]
          by_cases hid : touch.id = id
          · simp [hid, hmove]
          · rw [if_neg hid]
            exact ⟨fun h => h.resolve_left (Ne.symm hid), .inr⟩
      · rw [if_neg hmove]
        refine ⟨fun id => ?_, .kept hcoalesced fun h => hmove ((superseded_touch touch).mp h).1⟩
        rw [mem_filter, hseen id, movesNext_touch]
        by_cases hid : touch.id = id
        · simp [hid, hmove]
        · simp [hid, Ne.symm hid]
    · rw [not_exists] at htouch
      rw [coalesceFrom_other htouch]
      refine ⟨fun id => ?_, .kept hcoalesced (not_superseded_other htouch)⟩
      rw [hseen id, movesNext_other htouch]

theorem coalesced_coalesceMoves (batch : List (RemoteEvent F)) :
    Coalesced batch (coalesceMoves batch) := (coalesceFrom_spec batch).2

theorem Coalesced.sublist (h : Coalesced batch out) : List.Sublist out batch := by
  induction h with
  | nil => exact List.Sublist.slnil
  | kept _ _ ih => exact ih.cons_cons _
  | superseded _ _ ih => exact ih.cons _

/-- The position before a contact is lifted or cancelled is not superseded. -/
theorem not_superseded_before_end {touch ending : TouchEvent F}
    {middle after : List (RemoteEvent F)} (hend : ending.phase ≠ .move) (hid : ending.id = touch.id)
    (hmiddle : ∀ t, .input (.touch t) ∈ middle → t.id ≠ touch.id) :
    ¬ Superseded (.input (.touch touch)) (middle ++ .input (.touch ending) :: after) := by
  rw [superseded_touch]
  rintro ⟨-, hnext⟩
  induction middle with
  | nil =>
    rw [nil_append, movesNext_touch, if_pos hid] at hnext
    exact hend hnext
  | cons first middle ih =>
    have hrest := fun t ht => hmiddle t (mem_cons_of_mem _ ht)
    rw [cons_append] at hnext
    by_cases htouch : ∃ t, first = .input (.touch t)
    · obtain ⟨t, rfl⟩ := htouch
      rw [movesNext_touch, if_neg (hmiddle t mem_cons_self)] at hnext
      exact ih hrest hnext
    · rw [movesNext_other (not_exists.mp htouch)] at hnext
      exact ih hrest hnext

/-! ### What is never dropped -/

/-- What is neither a move nor a key nor text. -/
def lasting (events : List (RemoteEvent F)) : List (RemoteEvent F) :=
  events.filter fun event => !isDroppable event

theorem isDroppable_of_superseded (h : Superseded event later) : isDroppable event = true := by
  obtain ⟨touch, rfl, hmove, -⟩ := h
  simp [isDroppable, hmove]

theorem Coalesced.lasting_eq (h : Coalesced batch out) : lasting out = lasting batch := by
  induction h with
  | nil => rfl
  | kept _ _ ih =>
    unfold lasting at ih ⊢
    rw [filter_cons, filter_cons, ih]
  | superseded _ hsuperseded ih =>
    have hdroppable := isDroppable_of_superseded hsuperseded
    rw [ih]
    simp [lasting, hdroppable]

section

variable (h : Admitted pushed waiting)
include h

theorem Admitted.lasting_eq : lasting waiting = lasting pushed := by
  induction h with
  | nil => rfl
  | taken _ _ ih =>
    unfold lasting at ih ⊢
    rw [filter_append, filter_append, ih]
  | refused _ _ hdroppable ih =>
    unfold lasting at ih ⊢
    rw [filter_append, ih]
    simp [hdroppable]

theorem Admitted.sublist : List.Sublist waiting pushed := by
  induction h with
  | nil => exact List.Sublist.slnil
  | taken _ _ ih => exact ih.append (List.Sublist.refl _)
  | refused _ _ _ ih => exact ih.trans (sublist_append_left _ _)

/-- What waits is what is never dropped, and little more than the room of the
queue. -/
theorem Admitted.length_le :
    waiting.length ≤ maxPending + (lasting pushed).length := by
  induction h with
  | nil => exact Nat.zero_le _
  | taken _ htaken ih =>
    unfold lasting at ih ⊢
    rw [filter_append, length_append, length_append, length_singleton]
    rcases htaken with hroom | hlasting
    · omega
    · rw [filter_cons_of_pos (by simp [hlasting]), filter_nil, length_singleton]
      omega
  | refused _ _ _ ih =>
    unfold lasting at ih ⊢
    rw [filter_append, length_append]
    omega

theorem Admitted.lasting_le :
    (lasting pushed).length ≤ waiting.length := by
  rw [← h.lasting_eq]
  exact length_filter_le _ _

end

/-! ### A run -/

theorem admitted_push (h : Admitted pushed waiting) (event : RemoteEvent F) :
    Admitted (pushed ++ [event]) (push waiting event) := by
  unfold push
  split
  next hfull => exact .refused h hfull.1 hfull.2
  next hroom =>
    refine .taken h ?_
    rw [not_and_or, Nat.not_le, Bool.not_eq_true] at hroom
    exact hroom

def Drains (pushed out : List (RemoteEvent F)) : Prop :=
  ∃ waiting, Admitted pushed waiting ∧ Coalesced waiting out

theorem Drains.sublist (h : Drains pushed out) : List.Sublist out pushed := by
  obtain ⟨waiting, hadmitted, hcoalesced⟩ := h
  exact hcoalesced.sublist.trans hadmitted.sublist

theorem Drains.lasting_eq (h : Drains pushed out) : lasting out = lasting pushed := by
  obtain ⟨waiting, hadmitted, hcoalesced⟩ := h
  rw [hcoalesced.lasting_eq, hadmitted.lasting_eq]

open RemoteInputQueue (run)

theorem run_accounted (ops : List (QueueOp F)) :
    List.Forall₂ Drains (batches ops).1 (run ops).drained ∧
      Admitted (batches ops).2 (run ops).pending := by
  induction ops using List.reverseRecOn with
  | nil => exact ⟨.nil, .nil⟩
  | append_singleton ops op ih =>
    obtain ⟨hdrained, hpending⟩ := ih
    rw [run, batches, foldl_concat, foldl_concat]
    cases op with
    | push event => exact ⟨hdrained, admitted_push hpending event⟩
    | drain =>
      have hbatch : Drains _ _ := ⟨_, hpending, coalesced_coalesceMoves _⟩
      exact ⟨rel_append hdrained (.cons hbatch .nil), .nil⟩

theorem sublist_flatten {pushed drained : List (List (RemoteEvent F))}
    (h : List.Forall₂ Drains pushed drained) : List.Sublist drained.flatten pushed.flatten := by
  induction h with
  | nil => exact List.Sublist.refl _
  | cons hdrains _ ih => exact hdrains.sublist.append ih

theorem lasting_flatten {pushed drained : List (List (RemoteEvent F))}
    (h : List.Forall₂ Drains pushed drained) :
    lasting drained.flatten = lasting pushed.flatten := by
  induction h with
  | nil => rfl
  | cons hdrains _ ih =>
    unfold lasting at ih ⊢
    rw [flatten_cons, flatten_cons, filter_append, filter_append, ih]
    congr 1
    exact hdrains.lasting_eq

/-- What is wanted of a run: every batch comes out without what is superseded in
it and what met a full queue; in order, and with everything that is never
dropped. -/
structure Accounted (ops : List (QueueOp F)) : Prop where
  drained : List.Forall₂ Drains (batches ops).1 (run ops).drained
  pending : Admitted (batches ops).2 (run ops).pending
  inOrder : List.Sublist ((run ops).drained.flatten ++ (run ops).pending) (pushes ops)
  endings : lasting ((run ops).drained.flatten ++ (run ops).pending) = lasting (pushes ops)

theorem accounted (ops : List (QueueOp F)) : Accounted ops := by
  obtain ⟨hdrained, hpending⟩ := run_accounted ops
  refine ⟨hdrained, hpending, (sublist_flatten hdrained).append hpending.sublist, ?_⟩
  have hflatten := lasting_flatten hdrained
  have hrest := hpending.lasting_eq
  unfold pushes lasting at *
  rw [filter_append, filter_append, hflatten, hrest]

def WaitingBounded (runs : Set (List (QueueOp F))) : Prop :=
  ∃ bound, ∀ ops ∈ runs, (run ops).pending.length ≤ bound

theorem waiting_bounded_iff (runs : Set (List (QueueOp F))) :
    WaitingBounded runs ↔ ∃ bound, ∀ ops ∈ runs, (lasting (batches ops).2).length ≤ bound := by
  constructor
  · rintro ⟨bound, h⟩
    exact ⟨bound, fun ops hops => (run_accounted ops).2.lasting_le.trans (h ops hops)⟩
  · rintro ⟨bound, h⟩
    refine ⟨maxPending + bound, fun ops hops => ?_⟩
    exact (run_accounted ops).2.length_le.trans (Nat.add_le_add_left (h ops hops) _)

/-! ## The contacts that are down -/

def live (contacts : List ContactId) : RemoteEvent F → List ContactId
  | .input (.touch touch) =>
    match touch.phase with
    | .down => touch.id :: contacts.filter (· ≠ touch.id)
    | .move => contacts
    | .up => contacts.filter (· ≠ touch.id)
    | .cancel => contacts.filter (· ≠ touch.id)
  | .gone origin => contacts.filter (·.origin ≠ origin)
  | _ => contacts

/-- The runs in which at most `n` contacts are down at any time. -/
def AtMostLive (F : Type*) (n : ℕ) : Set (List (QueueOp F)) :=
  { ops | ∀ events, events <+: pushes ops → (events.foldl live []).length ≤ n }

/-- **The queue keeps order and endings, and its bound is one on what it never
drops.** -/
theorem remote_queue_kept : (∀ ops : List (QueueOp F), Accounted ops) ∧
      (∀ (touch ending : TouchEvent F) (middle after : List (RemoteEvent F)),
        ending.phase ≠ .move → ending.id = touch.id →
          (∀ t, .input (.touch t) ∈ middle → t.id ≠ touch.id) →
            ¬ Superseded (.input (.touch touch)) (middle ++ .input (.touch ending) :: after)) ∧
      ∀ runs : Set (List (QueueOp F)), WaitingBounded runs ↔
        ∃ bound, ∀ ops ∈ runs, (lasting (batches ops).2).length ≤ bound :=
  ⟨accounted, fun _ _ _ _ hend hid hmiddle => not_superseded_before_end hend hid hmiddle,
    waiting_bounded_iff⟩

/-- Nobody touches the panel, and somebody asks for the home screen again and
again. -/
theorem homes_unbounded : ¬ ∀ n, WaitingBounded (AtMostLive Unit n) := by
  intro h
  obtain ⟨bound, hbound⟩ := h 0
  let homes (k : ℕ) : List (QueueOp Unit) := .replicate k (.push .home)
  have hbatches (k : ℕ) : batches (homes k) = ([], .replicate k .home) := by
    induction k with
    | zero => rfl
    | succ k ih =>
      have hsplit : homes (k + 1) = homes k ++ [.push .home] := replicate_succ'
      rw [hsplit, batches, foldl_concat]
      change ((batches (homes k)).1, (batches (homes k)).2 ++ [.home]) = _
      rw [ih, replicate_succ']
  have hmem : homes (bound + 1) ∈ AtMostLive Unit 0 := by
    intro events hevents
    have hhome : ∀ event ∈ events, event = .home := by
      intro event hevent
      have hpushed := hevents.subset hevent
      rw [pushes, hbatches, flatten_nil, nil_append] at hpushed
      exact eq_of_mem_replicate hpushed
    have hlive : events.foldl live [] = [] := by
      clear hevents
      induction events with
      | nil => rfl
      | cons event events ih =>
        rw [foldl_cons, hhome event mem_cons_self]
        exact ih fun e he => hhome e (mem_cons_of_mem _ he)
    rw [hlive]
    exact Nat.le_refl 0
  have hwaiting := (run_accounted (homes (bound + 1))).2.lasting_le
  rw [hbatches] at hwaiting
  dsimp only at hwaiting
  have hall : (lasting (List.replicate (bound + 1) (RemoteEvent.home : RemoteEvent Unit))).length =
      bound + 1 := by
    simp [lasting, isDroppable]
  have hle := hbound _ hmem
  omega

end Castaway.Input
