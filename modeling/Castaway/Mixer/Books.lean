import Castaway.Mixer.Ledger
import Castaway.Lib.Runs

/-!
# The mixer's books

Three things break what the mixer promises.

* A flush of a ring that has audio takes it out of the books.
* A pass that was planned without an input pads it, if the input was written to
  meanwhile and less than the pass takes.
* A write that finds room appends its whole block, however little room there is.

## Strategy

`Kept` is the invariant that every step without these three keeps, and `Clean`
the part of the promise that is lost with one of them: `act_sound` goes through
the events.  `mixer_sound_iff` says that the mixer is sound exactly in the runs
without the three, and `off_the_books` has a run for each.
-/

namespace Castaway.Mixer.State

open Function List

variable {α : Type*} {s : State α} {s' : State α} {i now available inflight frames : ℕ}
  {p : Passing α} {inputs rest : List ℕ}

/-- The part of the promise that the code does not keep by itself. -/
structure Clean (s : State α) : Prop where
  unflushed : s.flushed = 0
  unpadded : ∀ p ∈ s.passes, ∀ frames, p.pass = .take frames → p.short = 0 ∧ p.starved = 0
  fits : ∀ i, s.wrote = some i → (s.inputs i).ring.frames + s.sink.inflight ≤ (s.inputs i).ceiling

/-- A step that flushes nothing, comes to no input and writes nothing. -/
theorem Clean.same (h : Clean s) (hflushed : s'.flushed = s.flushed)
    (hpasses : ∀ p ∈ s'.passes, p ∈ s.passes ∨ p.short = 0 ∧ p.starved = 0)
    (hwrote : s'.wrote = none) : Clean s' := by
  refine ⟨hflushed.trans h.unflushed, fun p hp frames htake => ?_, fun i hi => ?_⟩
  · rcases hpasses p hp with hbefore | hnone
    · exact h.unpadded p hbefore frames htake
    · exact hnone
  · rw [hwrote] at hi
    cases hi

theorem flushed_update (hi : i < s.made) (input : Input α) :
    (s.update i input).flushed + framesOf Fate.isFlushed (s.inputs i).spent =
      s.flushed + framesOf Fate.isFlushed input.spent :=
  total_update (fun input => framesOf Fate.isFlushed input.spent) hi input

theorem flushed_flush (hi : i < s.made) :
    (s.update i (s.inputs i).flush).flushed = s.flushed + (s.inputs i).ring.frames := by
  have hupdate := flushed_update hi (s.inputs i).flush
  have hframes : framesOf Fate.isFlushed (s.inputs i).flush.spent =
      framesOf Fate.isFlushed (s.inputs i).spent + (s.inputs i).ring.frames := by
    rw [Input.flush, framesOf_concat]
    rfl
  omega

theorem flushed_same (hi : i < s.made) {input : Input α}
    (hinputs : s'.inputs = (s.update i input).inputs) (hmade : s'.made = s.made)
    (hspent : framesOf Fate.isFlushed input.spent =
      framesOf Fate.isFlushed (s.inputs i).spent) : s'.flushed = s.flushed := by
  have hupdate := flushed_update hi input
  have hsame : s'.flushed = (s.update i input).flushed := by
    rw [flushed, flushed, total, total, hinputs, hmade]
    rfl
  omega

/-- A write keeps the promise exactly if it leaves the input within its budget.
-/
theorem clean_written (hclean : Clean s) (hi : i < s.made)
    (input : Input α) (hinputs : s'.inputs = (s.update i input).inputs) (hmade : s'.made = s.made)
    (hpasses : s'.passes = s.passes) (hsink : s'.sink = s.sink) (hwrote : s'.wrote = some i)
    (hspent : framesOf Fate.isFlushed input.spent =
      framesOf Fate.isFlushed (s.inputs i).spent) :
    Clean s' ↔ input.ring.frames + s.sink.inflight ≤ input.ceiling := by
  have hself : s'.inputs i = input := by
    rw [hinputs]
    exact update_self i input s.inputs
  constructor
  · intro hafter
    have hfits := hafter.fits i hwrote
    rwa [hself, hsink] at hfits
  · intro hfits
    refine ⟨(flushed_same hi hinputs hmade hspent).trans hclean.unflushed,
      hpasses ▸ hclean.unpadded, fun j hj => ?_⟩
    rw [hwrote] at hj
    rw [← Option.some.inj hj, hself, hsink]
    exact hfits

/-- A section of a pass keeps the promise exactly if it adds nothing to what a
pass that takes must not have. -/
theorem clean_visited (hclean : Clean s) (hwrote : s.wrote = none)
    {p' : Passing α} (short starved : ℕ) (hstage : s.stage = .passing p)
    (hstage' : s'.stage = .passing p') (hdone : s'.done = s.done)
    (hwrote' : s'.wrote = s.wrote) (hpass : p'.pass = p.pass) (hflushed : s'.flushed = s.flushed)
    (hshort : p'.short = p.short + short) (hstarved : p'.starved = p.starved + starved) :
    Clean s' ↔ ∀ frames, p.pass = .take frames → short = 0 ∧ starved = 0 := by
  have hpasses : s.passes = s.done ++ [p] := passes_passing hstage
  have hpasses' : s'.passes = s.done ++ [p'] := (passes_passing hstage').trans (hdone ▸ rfl)
  constructor
  · intro hafter frames htake
    obtain ⟨hshort', hstarved'⟩ := hafter.unpadded p' (by rw [hpasses']; simp) frames
      (hpass.trans htake)
    exact ⟨by omega, by omega⟩
  · intro hnone
    refine ⟨hflushed.trans hclean.unflushed, fun q hq frames htake => ?_, ?_⟩
    · rw [hpasses'] at hq
      rcases mem_append.mp hq with hbefore | hlast
      · exact hclean.unpadded q (hpasses ▸ mem_append_left _ hbefore) frames htake
      · rw [mem_singleton.mp hlast] at htake ⊢
        have htake' := hpass.symm.trans htake
        obtain ⟨hzero, hzero'⟩ := hclean.unpadded p (by rw [hpasses]; simp) frames htake'
        obtain ⟨hnone', hnone''⟩ := hnone frames htake'
        exact ⟨by omega, by omega⟩
    · rw [hwrote', hwrote]
      exact nofun

theorem ready_made (h : s.ready i = true) : i < s.made := by
  rw [State.ready, Bool.and_assoc] at h
  exact of_decide_eq_true (Bool.and_eq_true_iff.mp h).1

theorem begin_fresh [Zero α] {pass : Pass}
    (hp : p ∈ (s.begin inputs now pass).current) : p.short = 0 ∧ p.starved = 0 := by
  cases pass with
  | sleep => exact (not_mem_nil hp).elim
  | take frames | backstop => exact mem_singleton.mp hp ▸ ⟨rfl, rfl⟩

variable [Zero α] [Add α]

/-- The invariant of the mixer.  In a pass that takes what its inputs had, an
input that is yet to be visited and has nothing was not counted on. -/
structure Kept (s : State α) : Prop where
  ledger : Ledger s
  passes : ∀ p ∈ s.passes, p.Kept
  entered : ∀ i, (s.inputs i).spent.filterMap Spent.chunk = s.passes.flatMap (·.givenBy i)
  starved : s.counters.starved = (s.passes.map Passing.starved).sum
  fresh : ∀ i, s.made ≤ i → s.inputs i = {}
  live : s.live.Nodup ∧ ∀ i ∈ s.live, i < s.made
  listed : ∀ inputs, s.stage = .listed inputs → inputs.Nodup ∧ ∀ i ∈ inputs, i < s.made
  toVisit : ∀ p, s.stage = .passing p → ∀ i ∈ p.toVisit, i < s.made
  queue : s.sink.inflight ≤ deviceLead
  queued : ∀ p, s.stage = .passing p → s.sink.inflight ≤ p.queued
  ready : ∀ p frames, s.stage = .passing p → p.pass = .take frames → ∀ i ∈ p.toVisit,
    (s.inputs i).ring.frames = 0 → ∀ n, (s.inputs i).ring.supply p.now ≠ .flowing n

/-- One input changes outside a pass's own sections. -/
theorem Kept.change (h : Kept s) (hi : i < s.made) {input : Input α}
    (hledger : Ledger s') (hinputs : s'.inputs = (s.update i input).inputs)
    (hmade : s'.made = s.made) (hlive : s'.live = s.live) (hsink : s'.sink = s.sink)
    (hstage : s'.stage = s.stage) (hdone : s'.done = s.done)
    (hstarved : s'.counters.starved = s.counters.starved)
    (hchunks : input.spent.filterMap Spent.chunk = (s.inputs i).spent.filterMap Spent.chunk)
    (hready : input.ring.frames = 0 → ∀ now n, input.ring.supply now = .flowing n →
      (s.inputs i).ring.frames = 0 ∧ (s.inputs i).ring.supply now = .flowing n) : Kept s' := by
  have hself : s'.inputs i = input := by
    rw [hinputs]
    exact update_self i input s.inputs
  have hother (j : ℕ) (hj : j ≠ i) : s'.inputs j = s.inputs j := by
    rw [hinputs]
    exact update_of_ne hj input s.inputs
  have hpasses : s'.passes = s.passes := by rw [State.passes, State.passes, hdone, hstage]
  refine ⟨hledger, hpasses ▸ h.passes, fun j => ?_, ?_, fun j hj => ?_, ?_, ?_, ?_, hsink ▸ h.queue,
    ?_, fun p frames hp htake j hj hempty n hflowing => ?_⟩
  · rw [hpasses, ← h.entered j]
    by_cases hji : j = i
    · rw [hji, hself, hchunks]
    · rw [hother j hji]
  · rw [hpasses, hstarved, h.starved]
  · rw [hmade] at hj
    rw [hother j (Nat.ne_of_gt (Nat.lt_of_lt_of_le hi hj))]
    exact h.fresh j hj
  · rw [hlive, hmade]
    exact h.live
  · rw [hstage, hmade]
    exact h.listed
  · rw [hstage, hmade]
    exact h.toVisit
  · rw [hstage, hsink]
    exact h.queued
  · rw [hstage] at hp
    by_cases hji : j = i
    · rw [hji, hself] at hempty hflowing
      obtain ⟨hempty', hflowing'⟩ := hready hempty p.now n hflowing
      exact h.ready p frames hp htake i (hji ▸ hj) hempty' n hflowing'
    · rw [hother j hji] at hempty hflowing
      exact h.ready p frames hp htake j hj hempty n hflowing

theorem Kept.input (h : Kept s) (backpressure : Backpressure) : Kept (s.input backpressure) := by
  have hother (j : ℕ) (hj : j ≠ s.made) : (s.input backpressure).inputs j = s.inputs j :=
    update_of_ne hj _ _
  have hnew : (s.input backpressure).inputs s.made = { backpressure } :=
    update_self s.made _ s.inputs
  refine ⟨h.ledger.input backpressure, h.passes, fun j => ?_, h.starved, fun j hj => ?_, ⟨?_, ?_⟩,
    fun inputs hlisted => ?_, fun p hp i hi => Nat.lt_succ_of_lt (h.toVisit p hp i hi), h.queue,
    h.queued, fun p frames hp htake i hi => ?_⟩
  · by_cases hj : j = s.made
    · have hnone := h.entered s.made
      rw [h.fresh s.made (Nat.le_refl _)] at hnone
      rw [hj, hnew]
      exact hnone
    · rw [hother j hj]
      exact h.entered j
  · rw [hother j (Nat.ne_of_gt hj)]
    exact h.fresh j (Nat.le_of_succ_le hj)
  · refine nodup_append.mpr ⟨h.live.1, nodup_cons.mpr ⟨not_mem_nil, nodup_nil⟩,
      fun i hi j hj => ?_⟩
    rw [mem_singleton.mp hj]
    exact Nat.ne_of_lt (h.live.2 i hi)
  · intro i hi
    rcases mem_append.mp hi with hbefore | hlast
    · exact Nat.lt_succ_of_lt (h.live.2 i hbefore)
    · rw [mem_singleton.mp hlast]
      exact Nat.lt_succ_self s.made
  · obtain ⟨hnodup, hmade⟩ := h.listed inputs hlisted
    exact ⟨hnodup, fun i hi => Nat.lt_succ_of_lt (hmade i hi)⟩
  · rw [hother i (Nat.ne_of_lt (h.toVisit p hp i hi))]
    exact h.ready p frames hp htake i hi

theorem Kept.play (h : Kept s) (frames : ℕ) :
    Kept { s with sink.played := s.sink.played + frames } := by
  have hless : s.sink.submitted - (s.sink.played + frames) ≤ s.sink.inflight :=
    Nat.sub_le_sub_left (Nat.le_add_right _ _) _
  exact ⟨h.ledger.congr rfl rfl rfl rfl rfl rfl, h.passes, h.entered, h.starved, h.fresh, h.live,
    h.listed, h.toVisit, hless.trans h.queue, fun p hp => hless.trans (h.queued p hp), h.ready⟩

theorem Kept.flush (h : Kept s) (hi : i < s.made)
    (hempty : (s.inputs i).ring.samples = []) : Kept (s.update i (s.inputs i).flush) := by
  have hring : (s.inputs i).flush.ring = (s.inputs i).ring := by
    rw [Input.flush, ← hempty]
  refine h.change hi ?_ rfl rfl rfl rfl rfl rfl rfl ?_ fun hnone now n hflowing => ?_
  · exact h.ledger.update hi rfl rfl (h.ledger.kept i).flush rfl
      (by rw [Input.flush, framesOf_concat]; rfl) (by rw [Input.flush, framesOf_concat]; rfl)
      (by rw [Input.flush, framesOf_concat]; rfl)
  · rw [Input.flush, filterMap_append]
    exact append_nil _
  · rw [hring] at hnone hflowing
    exact ⟨hnone, hflowing⟩

theorem Kept.enqueue (h : Kept s) (hi : i < s.made) (block : Block α) (expired : Bool)
    (now : ℕ) : Kept (s.enqueue i block expired now) := by
  have hkept : (s.inputs i).Kept := h.ledger.kept i
  have hfull {input : Input α} (hinput : input.Kept) :
      (input.append block now).ring.frames = 0 → ∀ now' n,
        (input.append block now).ring.supply now' = .flowing n →
          (s.inputs i).ring.frames = 0 ∧ (s.inputs i).ring.supply now' = .flowing n :=
    fun hempty => absurd hempty (Nat.ne_of_gt (Input.frames_append_pos hinput block now))
  rw [State.enqueue]
  dsimp only
  split
  · refine h.change hi ?_ rfl rfl rfl rfl rfl rfl rfl rfl (hfull hkept)
    refine h.ledger.update hi rfl rfl (hkept.append block now) ?_ rfl rfl rfl
    rw [Input.written_append hkept]
    dsimp only
    omega
  · split
    · have hroom := hkept.makeRoom s.deviceInflight block
      refine h.change hi ?_ rfl rfl rfl rfl rfl rfl rfl
        (Input.chunks_makeRoom _ _ _) (hfull hroom)
      refine h.ledger.update hi rfl rfl (hroom.append block now) ?_ ?_ ?_ ?_
      · have hwritten : ((s.inputs i).makeRoom s.deviceInflight block).written =
            (s.inputs i).written := by
          rw [Input.makeRoom]
          dsimp only
          split <;> rfl
        rw [Input.written_append hroom, hwritten]
        dsimp only
        omega
      · change _ = _ + framesOf _ ((s.inputs i).makeRoom s.deviceInflight block).spent
        rw [Input.framesOf_makeRoom]
        cases (s.inputs i).target.isSome <;> simp [Fate.isMixed, State.update]
      · change _ = _ + framesOf _ ((s.inputs i).makeRoom s.deviceInflight block).spent
        rw [Input.framesOf_makeRoom]
        cases (s.inputs i).target.isSome with
        | true => simp [Fate.isShed]
        | false =>
          simp only [Fate.isShed, Bool.false_eq_true, if_false, if_true]
          omega
      · change _ = _ + framesOf _ ((s.inputs i).makeRoom s.deviceInflight block).spent
        rw [Input.framesOf_makeRoom]
        cases (s.inputs i).target.isSome with
        | true =>
          simp only [Fate.isReclaimed, if_true]
          omega
        | false => simp [Fate.isReclaimed]
    · have hsame (parked : Option (Block α)) : ({ s.inputs i with parked } : Input α).Kept :=
        ⟨hkept.fed, hkept.spent, hkept.ring, hkept.slots, hkept.unfed⟩
      split
      · exact h.change hi (h.ledger.update hi rfl rfl (hsame none) rfl rfl rfl rfl) rfl rfl rfl rfl
          rfl rfl rfl rfl fun hempty _ _ hflowing => ⟨hempty, hflowing⟩
      · exact h.change hi (h.ledger.update hi rfl rfl (hsame _) rfl rfl rfl rfl) rfl rfl rfl rfl
          rfl rfl rfl rfl fun hempty _ _ hflowing => ⟨hempty, hflowing⟩

/-! ## One visit -/

/-- What a visit takes from a ring and gives to the mix. -/
theorem drain_eq (h : (s.inputs i).Kept) (hp : p.Kept)
    (havailable : available = (s.inputs i).ring.frames) (tail : Bool) :
    let taken := min available p.frames
    let slot := p.frames * channels - taken * channels
    let gave := (s.inputs i).ring.samples.take (taken * channels)
    s.drain p i available tail =
      { s.update i
          { s.inputs i with
            ring.samples := (s.inputs i).ring.samples.drop (taken * channels)
            spent := (s.inputs i).spent ++ [⟨.mixed slot, gave⟩] } with
        counters.drained := s.counters.drained + taken
        counters.starved := s.counters.starved + (if tail then 0 else p.frames - taken)
        counters.idle := s.counters.idle + (if tail then p.frames - taken else 0)
        stage := .passing (p.after p.toVisit ⟨i, slot, gave⟩
          (if tail && available = 0 then 0 else p.frames - taken)
          (if tail then 0 else p.frames - taken)) } := by
  have hring := h.ring
  have hlength := hp.length
  have htaken : min available p.frames * channels ≤ (s.inputs i).ring.samples.length := by
    rw [havailable, Ring.frames]
    simp only [channels] at *
    omega
  have hslots : (p.mixed.drop (p.frames * channels - min available p.frames * channels)).length =
      min available p.frames * channels := by
    rw [length_drop, hlength]
    simp only [channels] at *
    omega
  have hgave : (s.inputs i).ring.samples.length -
      ((s.inputs i).ring.samples.drop (min available p.frames * channels)).length =
        min available p.frames * channels := by
    rw [length_drop]
    omega
  have hpoured := pour_eq (hslots.trans_le htaken)
  rw [hslots] at hpoured
  rw [State.drain]
  dsimp only
  rw [hpoured]
  dsimp only
  rw [hgave]
  rfl

/-- One section of a pass: it may change the input whose turn it is. -/
theorem Kept.visited (h : Kept s) (p' : Passing α)
    (hstage : s.stage = .passing p) (hvisit : p.toVisit = i :: p'.toVisit) (hledger : Ledger s')
    (hp' : p'.Kept) (hmade : s'.made = s.made) (hlive : s'.live = s.live)
    (hsink : s'.sink = s.sink) (hstage' : s'.stage = .passing p') (hdone : s'.done = s.done)
    (hinputs : ∀ j ≠ i, s'.inputs j = s.inputs j)
    (hentered : ∀ j, ∃ chunks, (s'.inputs j).spent.filterMap Spent.chunk =
      (s.inputs j).spent.filterMap Spent.chunk ++ chunks ∧ p'.givenBy j = p.givenBy j ++ chunks)
    (hstarved : s'.counters.starved + p.starved = s.counters.starved + p'.starved)
    (hqueued : p'.queued = p.queued) (hnow : p'.now = p.now) (hpass : p'.pass = p.pass) :
    Kept s' := by
  have hpasses : s.passes = s.done ++ [p] := passes_passing hstage
  have hpasses' : s'.passes = s.done ++ [p'] := (passes_passing hstage').trans (hdone ▸ rfl)
  have hmem (j : ℕ) (hj : j ∈ p'.toVisit) : j ∈ p.toVisit := hvisit ▸ mem_cons_of_mem i hj
  have hi : i < s.made := h.toVisit p hstage i (hvisit ▸ mem_cons_self)
  have hne (j : ℕ) (hj : j ∈ p'.toVisit) : j ≠ i := by
    have honce := (h.passes p (by rw [hpasses]; simp)).once
    rw [hvisit] at honce
    have hcons := (nodup_append.mp honce).2.1
    exact fun heq => (nodup_cons.mp hcons).1 (heq ▸ hj)
  refine ⟨hledger, fun q hq => ?_, fun j => ?_, ?_, fun j hj => ?_, ?_, fun inputs hlisted => ?_,
    fun q hq j hj => ?_, hsink ▸ h.queue, fun q hq => ?_,
    fun q frames hq htake j hj hempty n hflowing => ?_⟩
  · rw [hpasses'] at hq
    rcases mem_append.mp hq with hdone' | hlast
    · exact h.passes q (hpasses ▸ mem_append_left _ hdone')
    · exact mem_singleton.mp hlast ▸ hp'
  · obtain ⟨chunks, hspent, hgiven⟩ := hentered j
    have hbefore := h.entered j
    rw [hpasses, flatMap_append] at hbefore
    rw [hspent, hbefore, hpasses', flatMap_append]
    simp [hgiven]
  · have hbefore := h.starved
    rw [hpasses, map_append, sum_append] at hbefore
    rw [hpasses', map_append, sum_append]
    simp only [map_cons, map_nil, sum_cons, sum_nil] at hbefore ⊢
    omega
  · rw [hmade] at hj
    rw [hinputs j (Nat.ne_of_gt (Nat.lt_of_lt_of_le hi hj))]
    exact h.fresh j hj
  · rw [hlive, hmade]
    exact h.live
  · rw [hstage'] at hlisted
    cases hlisted
  · rw [hstage'] at hq
    cases hq
    rw [hmade]
    exact h.toVisit p hstage j (hmem j hj)
  · rw [hstage'] at hq
    cases hq
    rw [hsink, hqueued]
    exact h.queued p hstage
  · rw [hstage'] at hq
    cases hq
    rw [hinputs j (hne j hj)] at hempty hflowing
    rw [hnow] at hflowing
    exact h.ready p frames hstage (hpass ▸ htake) j (hmem j hj) hempty n hflowing

theorem Kept.drain (h : Kept s) (hstage : s.stage = .passing p) (hvisit : p.toVisit = i :: rest)
    (havailable : available = (s.inputs i).ring.frames) (tail : Bool) :
    Kept (s.drain { p with toVisit := rest } i available tail) := by
  have hkept : (s.inputs i).Kept := h.ledger.kept i
  have hp : p.Kept := h.passes p (by rw [passes_passing hstage]; simp)
  have hi : i < s.made := h.toVisit p hstage i (hvisit ▸ mem_cons_self)
  have hp' : ({ p with toVisit := rest } : Passing α).Kept := hp.passed hvisit rfl
  have htaken : min available p.frames * channels ≤ (s.inputs i).ring.samples.length := by
    rw [havailable, Ring.frames]
    simp only [channels]
    omega
  have hgave : ((s.inputs i).ring.samples.take (min available p.frames * channels)).length =
      min available p.frames * channels := length_take_of_le htaken
  have hslot : (p.frames * channels - min available p.frames * channels) % channels = 0 := by
    simp only [channels]
    omega
  rw [drain_eq hkept hp' havailable tail]
  refine h.visited (p.after rest ⟨i, p.frames * channels - min available p.frames * channels,
      (s.inputs i).ring.samples.take (min available p.frames * channels)⟩
      (if tail && available = 0 then 0 else p.frames - min available p.frames)
      (if tail then 0 else p.frames - min available p.frames))
    hstage hvisit ?_ ?_ rfl rfl rfl rfl rfl ?_ ?_ ?_ rfl rfl rfl
  · refine h.ledger.update hi rfl rfl ?_ rfl ?_ ?_ ?_
    · refine hkept.spend (take_append_drop _ _).symm ?_ ?_ rfl rfl rfl rfl
      · rw [hgave]
        simp only [channels]
        omega
      · intro slot hfate
        rw [← Fate.mixed.inj hfate]
        exact hslot
    · rw [framesOf_concat, hgave]
      simp only [Fate.isMixed, if_true, channels]
      omega
    · rw [framesOf_concat]
      rfl
    · rw [framesOf_concat]
      rfl
  · refine hp.after hvisit hslot ?_ ?_ _ _
    · rw [hgave]
      simp only [channels]
      omega
    · rw [hgave]
      simp only [channels]
      omega
  · exact fun j hj => update_of_ne hj _ _
  · intro j
    refine ⟨if i = j then [(p.frames * channels - min available p.frames * channels,
      (s.inputs i).ring.samples.take (min available p.frames * channels))] else [], ?_,
      Passing.givenBy_after p rest _ _ _ j⟩
    by_cases hj : i = j
    · subst hj
      change (Function.update s.inputs i _ i).spent.filterMap Spent.chunk = _
      rw [update_self, filterMap_append, if_pos rfl]
      rfl
    · change (Function.update s.inputs i _ j).spent.filterMap Spent.chunk = _
      rw [update_of_ne (Ne.symm hj), if_neg hj, append_nil]
  · dsimp only [Passing.after]
    omega

theorem Kept.visit (h : Kept s) (hstage : s.stage = .passing p) (hvisit : p.toVisit = i :: rest) :
    Kept (s.visit { p with toVisit := rest } i) := by
  have hp : p.Kept := h.passes p (by rw [passes_passing hstage]; simp)
  rw [State.visit]
  split
  · exact h.visited _ hstage hvisit (h.ledger.congr rfl rfl rfl rfl rfl rfl) (hp.passed hvisit rfl)
      rfl rfl rfl rfl rfl (fun _ _ => rfl)
      (fun _ => ⟨[], (append_nil _).symm, (append_nil _).symm⟩) rfl rfl rfl rfl
  · exact h.visited _ hstage hvisit (h.ledger.congr rfl rfl rfl rfl rfl rfl) (hp.passed hvisit rfl)
      rfl rfl rfl rfl rfl (fun _ _ => rfl)
      (fun _ => ⟨[], (append_nil _).symm, (append_nil _).symm⟩) rfl rfl rfl rfl
  · rename_i available hsupply
    exact h.drain hstage hvisit (Ring.frames_of_flowing hsupply) false
  · rename_i available hsupply
    exact h.drain hstage hvisit (Ring.frames_of_tail hsupply) true

/-! ## The rest of the loop -/

/-- What a plan promises: a pass that takes has room at the device, and every
input that constrains it has as much, and a backstop is planned at the floor. -/
theorem plan_take {supplies : List Supply}
    (h : plan supplies inflight = .take frames) : 0 < frames ∧ inflight + frames ≤ deviceLead ∧
      ∀ supply ∈ supplies, ∀ n, supply.constraint = some n → frames ≤ n := by
  rw [plan] at h
  split at h
  · rename_i hpos
    rw [← Pass.take.inj h]
    refine ⟨hpos, by omega, fun supply hsupply n hn => ?_⟩
    cases hmin : (supplies.filterMap Supply.constraint).min? with
    | none =>
      have hempty := List.min?_eq_none_iff.mp hmin
      exact absurd (mem_filterMap.mpr ⟨supply, hsupply, hn⟩) (hempty ▸ not_mem_nil)
    | some least =>
      have hleast := (List.min?_eq_some_iff.mp hmin).2 n
        (mem_filterMap.mpr ⟨supply, hsupply, hn⟩)
      rw [Option.getD_some]
      omega
  · split at h
    · cases h
    · cases h

theorem plan_backstop {supplies : List Supply}
    (h : plan supplies inflight = .backstop) : inflight ≤ deviceFloor := by
  rw [plan] at h
  split at h
  · cases h
  · split at h
    · rename_i hfloor
      exact hfloor
    · cases h

theorem kept_begin {pass : Pass}
    (hnodup : inputs.Nodup) (hbackstop : pass = .backstop → inflight ≤ deviceFloor)
    (hbound : inflight + frames ≤ deviceLead) :
    ({ pass, queued := inflight, frames, now, toVisit := inputs
       mixed := List.replicate (frames * channels) 0 } : Passing α).Kept :=
  ⟨length_replicate, rfl, hnodup, fun _ hmem => (not_mem_nil hmem).elim, hbackstop,
    hbound⟩

/-- A step that goes to a stage without a pass, from one without a pass. -/
theorem Kept.stand (h : Kept s) (hcurrent : s.stage.current = [])
    (hinputs : s'.inputs = s.inputs) (hmade : s'.made = s.made)
    (hcounters : s'.counters = s.counters)
    (hdone : s'.done = s.done) (hnone : s'.stage.current = [])
    (hlive : s'.live.Nodup ∧ ∀ i ∈ s'.live, i < s.made)
    (hlisted : ∀ inputs, s'.stage = .listed inputs → inputs.Nodup ∧ ∀ i ∈ inputs, i < s.made)
    (hqueue : s'.sink.inflight ≤ deviceLead) : Kept s' := by
  have hpasses : s'.passes = s.passes := by
    rw [State.passes, State.passes, hdone, hcurrent, hnone]
  have hpassing (p : Passing α) (hp : s'.stage = .passing p) : False := by
    rw [hp] at hnone
    cases hnone
  refine ⟨h.ledger.congr hinputs hmade ?_ ?_ ?_ ?_, hpasses ▸ h.passes, ?_, ?_, ?_, ?_, ?_,
    fun p hp => (hpassing p hp).elim, hqueue, fun p hp => (hpassing p hp).elim,
    fun p _ hp => (hpassing p hp).elim⟩
  · rw [hcounters]
  · rw [hcounters]
  · rw [hcounters]
  · rw [hcounters]
  · rw [hinputs, hpasses]
    exact h.entered
  · rw [hcounters, hpasses]
    exact h.starved
  · rw [hinputs, hmade]
    exact h.fresh
  · rw [hmade]
    exact hlive
  · rw [hmade]
    exact hlisted

theorem Kept.planPass (h : Kept s) (hstage : s.stage = .listed inputs)
    (now : ℕ) : Kept (s.planPass inputs now) := by
  obtain ⟨hnodup, hmade⟩ := h.listed inputs hstage
  have hpasses : s.passes = s.done := by
    rw [State.passes, hstage]
    exact append_nil _
  -- a pass that begins has been given nothing yet
  have hbegun {p : Passing α} (hp : p.Kept) (hgiven : p.given = []) (hstarved : p.starved = 0)
      (htoVisit : p.toVisit = inputs) (hqueued : p.queued = s.sink.inflight)
      (hready : ∀ frames, p.pass = .take frames → ∀ i ∈ inputs,
        (s.inputs i).ring.frames = 0 → ∀ n, (s.inputs i).ring.supply p.now ≠ .flowing n) :
      Kept { s with deviceInflight := s.sink.inflight, stage := .passing p } := by
    have hpasses' : ({ s with deviceInflight := s.sink.inflight, stage := .passing p } :
        State α).passes = s.passes ++ [p] := by
      rw [hpasses]
      rfl
    refine ⟨h.ledger.congr rfl rfl rfl rfl rfl rfl, fun q hq => ?_, fun i => ?_, ?_, h.fresh,
      h.live, fun _ hlisted => (by cases hlisted), fun q hq i hi => ?_, h.queue, fun q hq => ?_,
      fun q frames hq htake i hi => ?_⟩
    · rw [hpasses'] at hq
      rcases mem_append.mp hq with hbefore | hnew
      · exact h.passes q hbefore
      · exact mem_singleton.mp hnew ▸ hp
    · rw [hpasses', flatMap_append]
      refine (h.entered i).trans ?_
      simp [Passing.givenBy, hgiven]
    · rw [hpasses', map_append, sum_append]
      refine h.starved.trans ?_
      simp [hstarved]
    · cases hq
      exact hmade i (htoVisit ▸ hi)
    · cases hq
      exact Nat.le_of_eq hqueued.symm
    · cases hq
      exact hready frames htake i (htoVisit ▸ hi)
  rw [State.planPass]
  cases hplan : plan (inputs.map fun i => (s.inputs i).ring.supply now) s.sink.inflight with
  | sleep =>
    exact h.stand (by rw [hstage]; rfl) rfl rfl rfl rfl rfl h.live
      (fun _ hlisted => by cases hlisted) h.queue
  | take frames =>
    obtain ⟨hpos, hroom, hleast⟩ := plan_take hplan
    refine hbegun (kept_begin hnodup (fun hbackstop => by cases hbackstop) hroom) rfl rfl rfl rfl
      fun _ _ i hi hempty n hflowing => ?_
    have hconstraint : ((s.inputs i).ring.supply now).constraint = some n := by
      rw [hflowing]
      rfl
    have hle := hleast _ (mem_map_of_mem hi) n hconstraint
    rw [Ring.constraint_eq hconstraint, hempty] at hle
    omega
  | backstop =>
    have hfloor := plan_backstop hplan
    refine hbegun (kept_begin hnodup (fun _ => hfloor) ?_) rfl rfl rfl rfl
      (fun _ htake => by cases htake)
    have hbound : deviceFloor + quantum ≤ deviceLead := by decide
    omega

theorem Kept.finish (h : Kept s) (hstage : s.stage = .passing p) (ok : Bool) :
    Kept (s.finish p ok) := by
  have hp : p.Kept := h.passes p (by rw [passes_passing hstage]; simp)
  have hpasses : (s.finish p ok).passes = s.passes := by
    rw [passes_passing hstage]
    exact append_nil _
  refine ⟨h.ledger.congr rfl rfl rfl rfl rfl rfl, hpasses ▸ h.passes, fun i => ?_, ?_, h.fresh,
    h.live, nofun, nofun, ?_, nofun, nofun⟩
  · rw [hpasses]
    exact h.entered i
  · rw [hpasses]
    exact h.starved
  · have hqueued := h.queued p hstage
    have hbound := hp.bound
    cases ok with
    | false => exact Nat.zero_le _
    | true =>
      change (s.sink.submit p.frames).inflight ≤ deviceLead
      rw [Sink.inflight, Sink.submit]
      dsimp only
      rw [Sink.inflight] at hqueued
      split <;> omega

/-! ## What is promised -/

/-- Everything that is promised of a state: what was written to an input is what
became of it and what its ring holds; what was mixed is what the passes were
given, in order, and a pass is its sum; the counters are true and add up; a pass
that was planned to take pads nobody, and a backstop is planned at the floor;
the device is never overfilled; and a write leaves its input within its budget.
-/
structure Sound (s : State α) : Prop where
  inputs : ∀ i, (s.inputs i).Kept
  entered : ∀ i, (s.inputs i).spent.filterMap Spent.chunk = s.passes.flatMap (·.givenBy i)
  passes : ∀ p ∈ s.passes, p.Kept
  drained : s.counters.drained = s.total fun input => framesOf Fate.isMixed input.spent
  shed : s.counters.shed = s.total fun input => framesOf Fate.isShed input.spent
  reclaimed : s.counters.reclaimed = s.total fun input => framesOf Fate.isReclaimed input.spent
  starved : s.counters.starved = (s.passes.map Passing.starved).sum
  books : s.counters.written =
    s.counters.drained + s.counters.shed + s.counters.reclaimed + s.inRings
  unpadded : ∀ p ∈ s.passes, ∀ frames, p.pass = .take frames → p.short = 0 ∧ p.starved = 0
  queue : s.sink.inflight ≤ deviceLead
  fits : ∀ i, s.wrote = some i → (s.inputs i).ring.frames + s.sink.inflight ≤ (s.inputs i).ceiling

theorem sound_iff (h : Kept s) : Sound s ↔ Clean s := by
  have hbalance := h.ledger.balance
  constructor
  · intro hsound
    have hbooks := hsound.books
    exact ⟨by omega, hsound.unpadded, hsound.fits⟩
  · intro hclean
    have hnone := hclean.unflushed
    exact ⟨h.ledger.kept, h.entered, h.passes, h.ledger.drained, h.ledger.shed, h.ledger.reclaimed,
      h.starved, by omega, hclean.unpadded, h.queue, hclean.fits⟩

/-- A block fits: what is left after room was made, the block and what is queued
at the device are within the budget. -/
def Fits (s : State α) (i : ℕ) (block : Block α) : Prop :=
  let input := s.inputs i
  if input.hasRoom s.deviceInflight then
    input.ring.frames + block.frames + s.sink.inflight ≤ input.ceiling
  else match input.backpressure with
    | .live =>
      min input.ring.frames (input.trim - s.deviceInflight - block.frames) + block.frames +
        s.sink.inflight ≤ input.ceiling
    | .pull => True

/-- Nothing is flushed that was not heard, every block fits, and a pass that was
planned to take finds nothing or enough wherever it comes. -/
def Meets (s : State α) : Event α → Prop
  | .write i block _ => s.ready i = true → s.Fits i block
  | .wake i _ _ => ∀ block, (s.inputs i).parked = some block → s.Fits i block
  | .flush i => s.ready i = true → (s.inputs i).ring.samples = []
  | .visit => ∀ p i rest frames, s.stage = .passing p → p.toVisit = i :: rest →
      p.pass = .take frames → (s.inputs i).ring.frames = 0 ∨ p.frames ≤ (s.inputs i).ring.frames
  | _ => True

/-- The note of a write says nothing of the rest. -/
theorem Kept.forget (h : Kept s) : Kept { s with wrote := none } :=
  ⟨h.ledger.congr rfl rfl rfl rfl rfl rfl, h.passes, h.entered, h.starved, h.fresh, h.live,
    h.listed, h.toVisit, h.queue, h.queued, h.ready⟩

/-! ## Which steps keep the promise -/

/-- Enqueueing keeps the promise exactly if the block fits. -/
theorem clean_enqueue (h : Kept s) (hclean : Clean s) (hwrote : s.wrote = none)
    (hi : i < s.made) (block : Block α) (expired : Bool) (now : ℕ) :
    Clean (s.enqueue i block expired now) ↔ s.Fits i block := by
  have hkept : (s.inputs i).Kept := h.ledger.kept i
  rw [State.enqueue]
  dsimp only
  split
  · rename_i hroom
    have hfits : s.Fits i block ↔ (s.inputs i).ring.frames + block.frames + s.sink.inflight ≤
        (s.inputs i).ceiling := by
      rw [State.Fits, if_pos hroom]
    refine Iff.trans
      (clean_written hclean hi ((s.inputs i).append block now) rfl rfl rfl rfl rfl rfl) ?_
    rw [hfits, Input.frames_append hkept]
    rfl
  · rename_i hroom
    split
    · rename_i hlive
      have hfits : s.Fits i block ↔ min (s.inputs i).ring.frames
          ((s.inputs i).trim - s.deviceInflight - block.frames) + block.frames +
            s.sink.inflight ≤ (s.inputs i).ceiling := by
        rw [State.Fits, if_neg hroom, hlive]
      have hkind : framesOf Fate.isFlushed
          (((s.inputs i).makeRoom s.deviceInflight block).append block now).spent =
            framesOf Fate.isFlushed (s.inputs i).spent := by
        change framesOf _ ((s.inputs i).makeRoom s.deviceInflight block).spent = _
        rw [Input.framesOf_makeRoom]
        cases (s.inputs i).target.isSome <;> rfl
      have hceiling : (((s.inputs i).makeRoom s.deviceInflight block).append block now).ceiling =
          (s.inputs i).ceiling := Input.ceiling_makeRoom _ _ _
      refine Iff.trans (clean_written hclean hi
        (((s.inputs i).makeRoom s.deviceInflight block).append block now) rfl rfl rfl rfl rfl
        hkind) ?_
      rw [hfits, Input.frames_append (hkept.makeRoom _ _), Input.frames_makeRoom hkept, hceiling]
    · rename_i hpull
      have hfits : s.Fits i block := by
        rw [State.Fits, if_neg hroom, hpull]
        trivial
      refine iff_of_true ?_ hfits
      split
      · exact hclean.same (flushed_same hi rfl rfl rfl) (fun p hp => .inl hp) hwrote
      · exact hclean.same (flushed_same hi rfl rfl rfl) (fun p hp => .inl hp) hwrote

/-- A visit keeps the promise exactly if a pass that takes finds nothing or
enough. -/
theorem clean_visit (h : Kept s) (hclean : Clean s) (hwrote : s.wrote = none)
    (hstage : s.stage = .passing p) (hvisit : p.toVisit = i :: rest) :
    Clean (s.visit { p with toVisit := rest } i) ↔ ∀ frames, p.pass = .take frames →
      (s.inputs i).ring.frames = 0 ∨ p.frames ≤ (s.inputs i).ring.frames := by
  have hkept : (s.inputs i).Kept := h.ledger.kept i
  have hp : p.Kept := h.passes p (by rw [passes_passing hstage]; simp)
  have hp' : ({ p with toVisit := rest } : Passing α).Kept := hp.passed hvisit rfl
  have hi : i < s.made := h.toVisit p hstage i (hvisit ▸ mem_cons_self)
  have hmem : i ∈ p.toVisit := hvisit ▸ mem_cons_self
  rw [State.visit]
  split
  · rename_i hsupply
    have hempty : (s.inputs i).ring.frames = 0 := by
      rw [Ring.frames, hkept.unfed (Ring.unfed_of_surface hsupply)]
      exact Nat.zero_div channels
    refine Iff.trans (clean_visited hclean hwrote 0 0 hstage rfl rfl rfl rfl rfl rfl rfl) ?_
    exact iff_of_true (fun _ _ => ⟨rfl, rfl⟩) fun _ _ => .inl hempty
  · rename_i hsupply
    refine Iff.trans (clean_visited hclean hwrote 0 0 hstage rfl rfl rfl rfl rfl rfl rfl) ?_
    exact iff_of_true (fun _ _ => ⟨rfl, rfl⟩) fun _ _ => .inl (Ring.empty_of_quiescent hsupply)
  · rename_i available hsupply
    have havailable := Ring.frames_of_flowing hsupply
    rw [drain_eq hkept hp' havailable false]
    refine Iff.trans (clean_visited hclean hwrote _ _ hstage rfl rfl rfl rfl ?_ rfl rfl) ?_
    · exact flushed_same hi rfl rfl (by rw [framesOf_concat]; rfl)
    · constructor
      · intro hnone frames htake
        have hshort := (hnone frames htake).1
        dsimp only at hshort
        rw [Bool.false_and, if_neg Bool.false_ne_true] at hshort
        refine .inr ?_
        omega
      · intro hfinds frames htake
        have hsome : (s.inputs i).ring.frames ≠ 0 := fun hempty =>
          h.ready p frames hstage htake i hmem hempty available hsupply
        have henough := (hfinds frames htake).resolve_left hsome
        dsimp only
        rw [Bool.false_and, if_neg Bool.false_ne_true]
        exact ⟨by omega, by omega⟩
  · rename_i available hsupply
    have havailable := Ring.frames_of_tail hsupply
    rw [drain_eq hkept hp' havailable true]
    refine Iff.trans (clean_visited hclean hwrote _ _ hstage rfl rfl rfl rfl ?_ rfl rfl) ?_
    · exact flushed_same hi rfl rfl (by rw [framesOf_concat]; rfl)
    · refine forall₂_congr fun frames _ => ?_
      dsimp only
      by_cases hempty : available = 0
      · rw [if_pos (by simp [hempty])]
        exact iff_of_true ⟨rfl, rfl⟩ (.inl (havailable ▸ hempty))
      · rw [if_neg (by simp [hempty])]
        constructor
        · rintro ⟨hshort, -⟩
          exact .inr (by omega)
        · intro hfinds
          have henough := hfinds.resolve_left (havailable ▸ hempty)
          exact ⟨by omega, rfl⟩

/-- Flushing keeps the promise exactly if there is nothing to flush. -/
theorem sound_flush (h : Kept s) (hsound : Sound s) (hwrote : s.wrote = none)
    (hi : i < s.made) : Sound (s.update i (s.inputs i).flush) ↔ (s.inputs i).ring.samples = [] := by
  have hkept : (s.inputs i).Kept := h.ledger.kept i
  have hflushed := flushed_flush (s := s) hi
  constructor
  · intro hafter
    have hledger : Ledger (s.update i (s.inputs i).flush) :=
      h.ledger.update hi rfl rfl hkept.flush rfl
        (by rw [Input.flush, framesOf_concat]; rfl) (by rw [Input.flush, framesOf_concat]; rfl)
        (by rw [Input.flush, framesOf_concat]; rfl)
    have hbalance := hledger.balance
    have hbooks := hafter.books
    have hring := hkept.ring
    have hempty : (s.inputs i).ring.frames = 0 := by omega
    rw [Ring.frames] at hempty
    refine eq_nil_of_length_eq_zero ?_
    simp only [channels] at *
    omega
  · intro hempty
    have hframes : (s.inputs i).ring.frames = 0 := by
      rw [Ring.frames, hempty]
      exact Nat.zero_div channels
    refine (sound_iff (h.flush hi hempty)).mpr (((sound_iff h).mp hsound).same ?_
      (fun p hp => .inl hp) hwrote)
    rw [hflushed, hframes, Nat.add_zero]

theorem Kept.made_of_parked (h : Kept s) {block : Block α}
    (hparked : (s.inputs i).parked = some block) : i < s.made := by
  by_contra hge
  rw [h.fresh i (Nat.not_lt.mp hge)] at hparked
  cases hparked

/-- A step that writes nothing, flushes nothing and comes to no input. -/
theorem sound_same (h : Kept s) (hsound : Sound s) (h' : Kept s')
    (hflushed : s'.flushed = s.flushed)
    (hpasses : ∀ p ∈ s'.passes, p ∈ s.passes ∨ p.short = 0 ∧ p.starved = 0)
    (hwrote : s'.wrote = none) : (Sound s' ↔ True) ∧ (True → Kept s') :=
  have hclean : Clean s' := ((sound_iff h).mp hsound).same hflushed hpasses hwrote
  ⟨iff_of_true ((sound_iff h').mpr hclean) trivial, fun _ => h'⟩

/-! ### Each event -/

/-- The promise outlasts the event exactly if the event meets its condition. -/
def Keeps (s : State α) (e : Event α) : Prop :=
  (Sound (s.act e) ↔ Meets s e) ∧ (Meets s e → Kept (s.act e))

theorem quiet (h : Kept s) (hsound : Sound s) : (Sound s ↔ True) ∧ (True → Kept s) :=
  ⟨iff_of_true hsound trivial, fun _ => h⟩

section

-- what holds before each event: its state wrote nothing yet
variable (h : Kept s) (hsound : Sound s) (hwrote : s.wrote = none)

include h hsound hwrote

theorem keeps_input (backpressure : Backpressure) : Keeps s (.input backpressure) := by
  exact sound_same h hsound (h.input backpressure) (total_input _ backpressure rfl)
    (fun p hp => .inl hp) hwrote

/-- A block is promised exactly where it fits. -/
theorem keeps_write (i : ℕ) (block : Block α) (now : ℕ) : Keeps s (.write i block now) := by
  have hclean : Clean s := (sound_iff h).mp hsound
  rw [Keeps, act, Meets]
  split
  · rename_i hready
    have hi := ready_made hready
    have hkept := h.enqueue hi block false now
    refine ⟨?_, fun _ => hkept⟩
    rw [sound_iff hkept, clean_enqueue h hclean hwrote hi]
    exact ⟨fun hfits _ => hfits, fun hfits => hfits hready⟩
  · rename_i hready
    exact ⟨iff_of_true hsound fun htrue => absurd htrue hready, fun _ => h⟩

theorem keeps_wake (i : ℕ) (expired : Bool) (now : ℕ) : Keeps s (.wake i expired now) := by
  have hclean : Clean s := (sound_iff h).mp hsound
  rw [Keeps, act, Meets]
  split
  · rename_i hparked
    refine ⟨iff_of_true hsound fun block hblock => ?_, fun _ => h⟩
    rw [hparked] at hblock
    cases hblock
  · rename_i block hparked
    have hi := h.made_of_parked hparked
    have hkept := h.enqueue hi block expired now
    refine ⟨?_, fun _ => hkept⟩
    rw [sound_iff hkept, clean_enqueue h hclean hwrote hi]
    constructor
    · intro hfits block' hblock'
      rw [hparked] at hblock'
      exact Option.some.inj hblock' ▸ hfits
    · exact fun hfits => hfits block hparked

theorem keeps_declare (i latency : ℕ) : Keeps s (.declare i latency) := by
  rw [Keeps, act]
  change (Sound _ ↔ True) ∧ (True → Kept _)
  split
  · rename_i hi
    have hkept := h.ledger.kept i
    refine sound_same h hsound (h.change hi ?_ rfl rfl rfl rfl rfl rfl rfl rfl
      fun hempty _ _ hflowing => ⟨hempty, hflowing⟩) (flushed_same hi rfl rfl rfl)
      (fun p hp => .inl hp) hwrote
    exact h.ledger.update hi rfl rfl
      ⟨hkept.fed, hkept.spent, hkept.ring, hkept.slots, hkept.unfed⟩ rfl rfl rfl rfl
  · exact quiet h hsound

/-- Nothing is lost with a ring that is empty. -/
theorem keeps_flush (i : ℕ) : Keeps s (.flush i) := by
  rw [Keeps, act, Meets]
  split
  · rename_i hready
    have hi := ready_made hready
    refine ⟨?_, fun hempty => h.flush hi (hempty hready)⟩
    rw [sound_flush h hsound hwrote hi]
    exact ⟨fun hempty _ => hempty, fun hempty => hempty hready⟩
  · rename_i hready
    exact ⟨iff_of_true hsound fun htrue => absurd htrue hready, fun _ => h⟩

theorem keeps_close (i : ℕ) : Keeps s (.close i) := by
  rw [Keeps, act]
  change (Sound _ ↔ True) ∧ (True → Kept _)
  split
  · rename_i hready
    have hi := ready_made hready
    have hkept := h.ledger.kept i
    refine sound_same h hsound (h.change hi ?_ rfl rfl rfl rfl rfl rfl rfl rfl
      fun _ now n hflowing => ?_) (flushed_same hi rfl rfl rfl) (fun p hp => .inl hp) hwrote
    · exact h.ledger.update hi rfl rfl hkept.close rfl rfl rfl rfl
    · -- a closed ring is a tail
      cases hflowing
  · exact quiet h hsound

theorem keeps_list : Keeps s .list := by
  rw [Keeps, act]
  change (Sound _ ↔ True) ∧ (True → Kept _)
  split
  · rename_i hstage
    have hcurrent : s.stage.current = [] := by rw [hstage]; rfl
    have hlive : s.liveInputs.Nodup ∧ ∀ i ∈ s.liveInputs, i < s.made :=
      ⟨h.live.1.filter _, fun i hi => h.live.2 i (mem_of_mem_filter hi)⟩
    have hpasses : s.passes = s.done := by
      rw [State.passes, hcurrent]
      exact append_nil _
    rw [State.list]
    split
    · exact sound_same h hsound
        (h.stand hcurrent rfl rfl rfl rfl hcurrent hlive
          (fun _ hlisted => by rw [hstage] at hlisted; cases hlisted) h.queue) rfl
        (fun p hp => .inl hp) hwrote
    · refine sound_same h hsound (h.stand hcurrent rfl rfl rfl rfl rfl hlive ?_ h.queue) rfl
        (fun p hp => .inl ?_) hwrote
      · rintro inputs ⟨⟩
        exact hlive
      · rw [hpasses]
        simpa [State.passes, Stage.current] using hp
  · exact quiet h hsound

theorem keeps_opened (counts : Bool) : Keeps s (.opened counts) := by
  rw [Keeps, act]
  change (Sound _ ↔ True) ∧ (True → Kept _)
  split
  · rename_i inputs hstage
    have hcurrent : s.stage.current = [] := by rw [hstage]; rfl
    exact sound_same h hsound
      (h.stand hcurrent rfl rfl rfl rfl hcurrent h.live h.listed (Nat.zero_le _)) rfl
      (fun p hp => .inl hp) hwrote
  · exact quiet h hsound

theorem keeps_stalled : Keeps s .stalled := by
  rw [Keeps, act]
  change (Sound _ ↔ True) ∧ (True → Kept _)
  split
  · rename_i inputs hstage
    have hcurrent : s.stage.current = [] := by rw [hstage]; rfl
    refine sound_same h hsound
      (h.stand hcurrent rfl rfl rfl rfl rfl h.live (fun _ hlisted => by cases hlisted)
        (Nat.zero_le _)) rfl
      (fun p hp => .inl ?_) hwrote
    rw [State.passes, hcurrent]
    exact hp
  · exact quiet h hsound

theorem keeps_released : Keeps s .released := by
  rw [Keeps, act]
  change (Sound _ ↔ True) ∧ (True → Kept _)
  split
  · rename_i hstage
    have hcurrent : s.stage.current = [] := by rw [hstage]; rfl
    exact sound_same h hsound
      (h.stand hcurrent rfl rfl rfl rfl hcurrent h.live h.listed (Nat.zero_le _)) rfl
      (fun p hp => .inl hp) hwrote
  · exact quiet h hsound

/-- A fresh pass has padded nothing. -/
theorem keeps_plan (now : ℕ) : Keeps s (.plan now) := by
  rw [Keeps, act]
  change (Sound _ ↔ True) ∧ (True → Kept _)
  split
  · rename_i inputs hstage
    have hpasses : s.passes = s.done := by
      rw [State.passes, hstage]
      exact append_nil _
    refine sound_same h hsound (h.planPass hstage now) rfl (fun p hp => ?_) hwrote
    rw [State.passes, State.planPass] at hp
    rcases mem_append.mp hp with hdone | hcurrent
    · exact .inl (hpasses ▸ hdone)
    · exact .inr (begin_fresh hcurrent)
  · exact quiet h hsound

/-- The pass comes to its next input, and pads it where there is less than was
planned. -/
theorem keeps_visit : Keeps s .visit := by
  have hclean : Clean s := (sound_iff h).mp hsound
  rw [Keeps, act, Meets]
  split
  · rename_i p hstage
    split
    · rename_i hnone
      refine ⟨iff_of_true hsound fun q i rest frames hq hvisit => ?_, fun _ => h⟩
      rw [hstage] at hq
      cases hq
      rw [hnone] at hvisit
      cases hvisit
    · rename_i i rest hvisit
      have hkept := h.visit hstage hvisit
      refine ⟨?_, fun _ => hkept⟩
      rw [sound_iff hkept, clean_visit h hclean hwrote hstage hvisit]
      constructor
      · intro hfinds q j rest' frames hq hvisit' htake
        rw [hstage] at hq
        cases hq
        rw [hvisit] at hvisit'
        cases hvisit'
        exact hfinds frames htake
      · exact fun hfinds frames htake => hfinds p i rest frames hstage hvisit htake
  · rename_i hother
    refine ⟨iff_of_true hsound fun q i rest frames hq => ?_, fun _ => h⟩
    exact (hother q hq).elim

theorem keeps_finish (ok : Bool) : Keeps s (.finish ok) := by
  rw [Keeps, act]
  change (Sound _ ↔ True) ∧ (True → Kept _)
  split
  · rename_i p hstage
    split
    · refine sound_same h hsound (h.finish hstage ok) rfl (fun q hq => .inl ?_) hwrote
      rw [passes_passing hstage]
      simpa [State.passes, State.finish, Stage.current] using hq
    · exact quiet h hsound
  · exact quiet h hsound

theorem keeps_play (frames : ℕ) : Keeps s (.play frames) := by
  exact sound_same h hsound (h.play frames) rfl (fun p hp => .inl hp) hwrote

/-- What one event does to the promise, in a state whose last step wrote
nothing. -/
theorem act_sound (e : Event α) : (Sound (s.act e) ↔ Meets s e) ∧ (Meets s e → Kept (s.act e)) := by
  cases e with
  | input backpressure => exact keeps_input h hsound hwrote backpressure
  | write i block now => exact keeps_write h hsound hwrote i block now
  | wake i expired now => exact keeps_wake h hsound hwrote i expired now
  | declare i latency => exact keeps_declare h hsound hwrote i latency
  | flush i => exact keeps_flush h hsound hwrote i
  | close i => exact keeps_close h hsound hwrote i
  | list => exact keeps_list h hsound hwrote
  | opened counts => exact keeps_opened h hsound hwrote counts
  | stalled => exact keeps_stalled h hsound hwrote
  | released => exact keeps_released h hsound hwrote
  | plan now => exact keeps_plan h hsound hwrote now
  | visit => exact keeps_visit h hsound hwrote
  | finish ok => exact keeps_finish h hsound hwrote ok
  | play frames => exact keeps_play h hsound hwrote frames

end

/-! ## Runs -/

theorem Sound.forget (h : Sound s) : Sound { s with wrote := none } :=
  ⟨h.inputs, h.entered, h.passes, h.drained, h.shed, h.reclaimed, h.starved, h.books, h.unpadded,
    h.queue, nofun⟩

theorem kept_start : Kept ({} : State α) :=
  ⟨⟨fun _ => Input.kept_new .pull, rfl, rfl, rfl, rfl⟩, nofun, fun _ => rfl, rfl, fun _ _ => rfl,
    ⟨nodup_nil, nofun⟩, nofun, nofun, Nat.zero_le _, nofun, nofun⟩

theorem sound_start : Sound ({} : State α) :=
  (sound_iff kept_start).mpr ⟨rfl, nofun, nofun⟩

/-- **The mixer keeps its books exactly in the runs in which** no audio is
flushed, every block fits, and a pass that was planned to take finds nothing or
enough in every ring. -/
theorem mixer_sound_iff (es : List (Event α)) :
    (∀ k ≤ es.length, Sound ((es.take k).foldl step {})) ↔ Along step Meets es {} := by
  refine along_iff_under Kept Sound kept_start sound_start (R := fun _ _ => True) along_true
    fun s e h hsound _ => ?_
  have hmeets : Meets { s with wrote := none } e ↔ Meets s e := by cases e <;> exact Iff.rfl
  rw [← hmeets]
  exact act_sound h.forget hsound.forget rfl e

/-! ## The runs that fail -/

def blockOf (frames : ℕ) (h : frames ≠ 0) : Block ℕ where
  samples := List.replicate (frames * channels) 1
  whole := by rw [length_replicate]; exact Nat.mul_mod_left frames channels
  nonempty := by
    rw [Ne, replicate_eq_nil_iff]
    simp only [channels]
    omega

theorem blockOf_frames (frames : ℕ) (h : frames ≠ 0) : (blockOf frames h).frames = frames := by
  rw [Block.frames, blockOf, length_replicate]
  exact Nat.mul_div_left frames (by decide)

def flushing : List (Event ℕ) := [.input .pull, .write 0 (blockOf 1 (by decide)) 0, .flush 0]

/-- A second source writes its first frame after a pass of two was planned. -/
def joining : List (Event ℕ) :=
  [.input .live, .input .live, .write 0 (blockOf 2 (by decide)) 0, .list, .plan 0,
    .write 1 (blockOf 1 (by decide)) 0, .visit, .visit]

def bursting : List (Event ℕ) := [.input .pull, .write 0 (blockOf 12001 (by decide)) 0]

/-- A flushed frame is in no book; a pass that was planned to take pads an
input; and a block goes in whole into less room than it needs. -/
theorem off_the_books : ¬ Sound (flushing.foldl step {}) ∧ ¬ Sound (joining.foldl step {}) ∧
    ¬ Sound (bursting.foldl step {}) := by
  refine ⟨fun h => ?_, fun h => ?_, fun h => ?_⟩
  · exact absurd h.books (by decide)
  · have hpasses : ∃ p, (joining.foldl step {}).passes = [p] ∧ p.pass = .take 2 ∧ p.short = 1 :=
      ⟨_, rfl, by decide, by decide⟩
    obtain ⟨p, hpasses, htake, hshort⟩ := hpasses
    have hnone := (h.unpadded p (by rw [hpasses]; exact mem_singleton_self p) 2 htake).1
    rw [hshort] at hnone
    cases hnone
  · -- the write finds an empty ring and nothing queued, so there is room
    have hfirst := act_sound kept_start.forget sound_start.forget rfl (.input .pull : Event ℕ)
    have hfits := (act_sound (hfirst.2 trivial).forget (hfirst.1.mpr trivial).forget rfl
      (.write 0 (blockOf 12001 (by decide)) 0)).1.mp h rfl
    rw [Fits, if_pos (by decide), blockOf_frames] at hfits
    exact absurd hfits (by decide)

end Castaway.Mixer.State
