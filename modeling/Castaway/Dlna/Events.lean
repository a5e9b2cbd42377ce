import Castaway.Dlna.Service
import Castaway.Lib.Runs
import Mathlib.Data.List.Chain
import Mathlib.Data.List.Nodup

/-!
# What subscribers are told, and in what order

An event is numbered under one lock, with properties that were read under
another.  `Told` is what a subscriber relies on: its numbers have no gap, number
0 is its initial event, no two later events in a row say the same, and once
nothing is in progress the last one says what is the case.

## Strategy

The first holds of every run (`Books`).  The others need the publications of a
service to take turns, which no lock makes them do: `Orderly` says when they
have, and `orderly_told` that then all of it holds.

* `Turn` is about one service: what the tasks in progress have read of it, what
  was last published, and the last events of its subscribers.
* `Openings` is about initial events: which are still to come, and for whom.
* `Hands` describes a step by the events it numbers, which is all that the two
  numbering steps, the expiry and the end of a subscription differ in.
-/

namespace Castaway.Dlna

open Castaway.Core (ControlTxn Payloads)
open List

/-! ## The property -/

/-- The number of the `n`-th event, from 0 on: up from 1, and after `2 ^ 32 - 1`
again 1. -/
def seqAt (n : ℕ) : ℕ := if n = 0 then 0 else (n - 1) % (2 ^ 32 - 1) + 1

def Service.handedTo (s : Service) (sid : String) : List Handed :=
  s.handed.filter fun e => e.sid == sid

/-- Two events in a row say different things, or one of them is initial. -/
def Follows (e e' : Handed) : Prop :=
  e.initial = true ∨ e'.initial = true ∨ e.properties ≠ e'.properties

/-- What the subscribers of a service rely on. -/
structure Told (s : Service) : Prop where
  /-- The numbers of a subscription are 0, 1, 2, and so on. -/
  sequence : ∀ sid,
    (s.handedTo sid).map (·.seq) = (List.range (s.handedTo sid).length).map seqAt
  /-- Number 0 is the initial event. -/
  initial : ∀ e ∈ s.handed, e.seq = 0 ↔ e.initial = true
  changes : ∀ sid, (s.handedTo sid).IsChain Follows
  /-- At rest, the last event of a live subscription says what is the case. -/
  current : s.tasks = [] → ∀ sub ∈ s.subscribers, sub.live s.now = true →
    ∃ e, (s.handedTo sub.sid).getLast? = some e ∧ e.properties = s.current sub.service

/-! ## What a task is doing -/

namespace Task

def toRead : Task → List EventedService
  | reading service rest => service :: rest
  | comparing _ _ rest => rest
  | numbering _ _ rest => rest
  | delivering _ rest => rest
  | readingFor _ _ => []
  | numberingFor _ _ _ => []
  | deliveringTo _ _ => []

def compares : Task → Option (EventedService × Properties)
  | comparing service properties _ => some (service, properties)
  | _ => none

def numbers : Task → Option (EventedService × Properties)
  | numbering service properties _ => some (service, properties)
  | _ => none

def opening : Task → Option (EventedService × String)
  | readingFor service sid => some (service, sid)
  | numberingFor service sid _ => some (service, sid)
  | _ => none

end Task

section Tasks

variable (ts : List Task) (service : EventedService)

def ToRead : Prop := ∃ t ∈ ts, service ∈ t.toRead

def Compares (p : Properties) : Prop := ∃ t ∈ ts, t.compares = some (service, p)

def Numbers (p : Properties) : Prop := ∃ t ∈ ts, t.numbers = some (service, p)

def Holds (p : Properties) : Prop := Compares ts service p ∨ Numbers ts service p

/-- The subscriber still waits for its initial event. -/
def Opening (sid : String) : Prop := ∃ t ∈ ts, t.opening = some (service, sid)

end Tasks

/-- A task may take its next lock: a service is read only when no publication
under way has read something else; its subscribers' events are numbered only
when none of them waits for the initial event; and an initial event says what
was last published, if anything was, or another event is about to follow. -/
def Service.InTurn (s : Service) : Task → Prop
  | .reading service _ => ∀ p, Holds s.tasks service p → p = s.current service
  | .numbering service _ _ =>
    ∀ sub ∈ s.subscribers, sub.service = service → sub.live s.now = true →
      ¬ Opening s.tasks service sub.sid
  | .numberingFor service _ p =>
    s.last service = none ∨ s.last service = some p ∨ ∃ q, Numbers s.tasks service q
  | _ => True

/-- **The publications of a service take turns.** -/
def Service.Orderly {P : Payloads} (s : Service) : Move P → Prop
  | .work i _ => ∀ task, s.tasks[i]? = some task → s.InTurn task
  | _ => True

/-! ## One service -/

section Turn

variable {t : Task} {ts ts' : List Task} {service other : EventedService} {sid : String}
  {p q current : Properties} {last : Option Properties} {latest latest' : Handed → Prop}

@[simp] theorem toRead_cons :
    ToRead (t :: ts) service ↔ service ∈ t.toRead ∨ ToRead ts service := by
  simp [ToRead]

@[simp] theorem compares_cons :
    Compares (t :: ts) service p ↔ t.compares = some (service, p) ∨ Compares ts service p := by
  simp [Compares]

@[simp] theorem numbers_cons :
    Numbers (t :: ts) service p ↔ t.numbers = some (service, p) ∨ Numbers ts service p := by
  simp [Numbers]

@[simp] theorem opening_cons :
    Opening (t :: ts) service sid ↔ t.opening = some (service, sid) ∨ Opening ts service sid := by
  simp [Opening]

def numberers (ts : List Task) (service : EventedService) : ℕ :=
  ts.countP fun t => t.numbers.map (·.1) == some service

theorem numberers_cons : numberers (t :: ts) service =
    numberers ts service + if t.numbers.map (·.1) == some service then 1 else 0 :=
  countP_cons

theorem numberers_eq_zero : numberers ts service = 0 ↔ ∀ p, ¬ Numbers ts service p := by
  rw [numberers, countP_eq_zero]
  constructor
  · rintro h p ⟨t, ht, hnumbers⟩
    exact h t ht (by simp [hnumbers])
  · intro h t ht hnumbers
    obtain ⟨⟨held, p⟩, hheld, rfl⟩ : ∃ a, t.numbers = some a ∧ a.1 = service := by
      simpa using hnumbers
    exact h p ⟨t, ht, hheld⟩

/-- What is true of a service while its publications take turns: `last` was last
published, `current` is the case, and `latest` are the last events of its
subscribers. -/
structure Turn (service : EventedService) (ts : List Task) (last : Option Properties)
    (current : Properties) (latest : Handed → Prop) : Prop where
  /-- All that was read and is not numbered yet is the same. -/
  agree : ∀ p q, Holds ts service p → Holds ts service q → p = q
  fresh : ∀ p, Holds ts service p → p = current ∨ ToRead ts service
  published : last = some current ∨ last = none ∨ ToRead ts service ∨ ∃ p, Compares ts service p
  numbered : ∀ p, Numbers ts service p → last = some p
  single : numberers ts service ≤ 1
  /-- As long as nothing was published nothing has changed. -/
  unpublished : last = none → ToRead ts service ∨ (∃ p, Compares ts service p) ∨
    (∀ e, latest e → e.properties = current) ∧
      ∀ sid p, Task.numberingFor service sid p ∈ ts → p = current
  told : ∀ e, latest e →
    last = none ∨ last = some e.properties ∨ ∃ p, Numbers ts service p
  differs : ∀ e, latest e → e.initial = false →
    (∀ p, Numbers ts service p → e.properties ≠ p) ∧
      ((∀ p, ¬ Numbers ts service p) → last = some e.properties)

/-- At rest every last event says what is the case. -/
theorem Turn.rest (h : Turn service [] last current latest) {e : Handed} (he : latest e) :
    e.properties = current := by
  have hread : ¬ ToRead [] service := by simp [ToRead]
  have hcompares : ¬ ∃ p, Compares [] service p := by simp [Compares]
  have hnumbers : ¬ ∃ p, Numbers [] service p := by simp [Numbers]
  cases hlast : last with
  | none =>
    rcases h.unpublished hlast with hto | hto | ⟨hcurrent, -⟩
    · exact absurd hto hread
    · exact absurd hto hcompares
    · exact hcurrent e he
  | some p =>
    have hcurrent : p = current := by
      rcases h.published with hp | hp | hto | hto
      · exact Option.some.inj (hlast.symm.trans hp)
      · exact absurd (hlast.symm.trans hp) (Option.some_ne_none p)
      · exact absurd hto hread
      · exact absurd hto hcompares
    rcases h.told e he with hnone | hsome | hto
    · exact absurd (hlast.symm.trans hnone) (Option.some_ne_none p)
    · exact (Option.some.inj (hsome.symm.trans hlast)).trans hcurrent
    · exact absurd hto hnumbers

section

variable (h : Turn service ts last current latest)
include h

/-- Only what the tasks do with this service matters. -/
theorem Turn.congr (hread : ToRead ts' service ↔ ToRead ts service)
    (hcompares : ∀ p, Compares ts' service p ↔ Compares ts service p)
    (hnumbers : ∀ p, Numbers ts' service p ↔ Numbers ts service p)
    (hcount : numberers ts' service ≤ numberers ts service)
    (hinitial : ∀ sid p, Task.numberingFor service sid p ∈ ts' →
      Task.numberingFor service sid p ∈ ts) : Turn service ts' last current latest := by
  have hholds (p : Properties) : Holds ts' service p ↔ Holds ts service p :=
    or_congr (hcompares p) (hnumbers p)
  refine ⟨fun p q hp hq => ?_, fun p hp => ?_, ?_, fun p hp => ?_, hcount.trans h.single,
    fun hlast => ?_, fun e he => ?_, fun e he hlater => ?_⟩
  · exact h.agree p q ((hholds p).mp hp) ((hholds q).mp hq)
  · exact (h.fresh p ((hholds p).mp hp)).imp id hread.mpr
  · simp only [hread, hcompares]
    exact h.published
  · exact h.numbered p ((hnumbers p).mp hp)
  · simp only [hread, hcompares]
    exact (h.unpublished hlast).imp id fun h =>
      h.imp id fun h => ⟨h.1, fun sid p hp => h.2 sid p (hinitial sid p hp)⟩
  · simp only [hnumbers]
    exact h.told e he
  · simp only [hnumbers]
    exact h.differs e he hlater

theorem Turn.perm (hperm : ts.Perm ts') :
    Turn service ts' last current latest := by
  have hmem (P : Task → Prop) : (∃ t ∈ ts', P t) ↔ ∃ t ∈ ts, P t :=
    exists_congr fun t => and_congr_left' hperm.mem_iff.symm
  exact h.congr (hmem _) (fun _ => hmem _) (fun _ => hmem _) (hperm.countP_eq _).ge
    fun _ _ => hperm.mem_iff.mpr

theorem Turn.fewer (hlatest : ∀ e, latest' e → latest e) : Turn service ts last current latest' :=
  { h with
    unpublished := fun hlast => (h.unpublished hlast).imp id fun h =>
      h.imp id fun h => ⟨fun e he => h.1 e (hlatest e he), h.2⟩
    told := fun e he => h.told e (hlatest e he)
    differs := fun e he => h.differs e (hlatest e he) }

/-- Something is to be read: whatever it finds, the rest stays as it is. -/
theorem Turn.stale (now : Properties)
    (hread : ToRead ts' service) (hcompares : ∀ p, Compares ts' service p ↔ Compares ts service p)
    (hnumbers : ∀ p, Numbers ts' service p ↔ Numbers ts service p)
    (hcount : numberers ts' service ≤ numberers ts service) : Turn service ts' last now latest := by
  have hholds (p : Properties) : Holds ts' service p ↔ Holds ts service p :=
    or_congr (hcompares p) (hnumbers p)
  refine ⟨fun p q hp hq => ?_, fun p _ => .inr hread, .inr (.inr (.inl hread)), fun p hp => ?_,
    hcount.trans h.single, fun _ => .inl hread, fun e he => ?_, fun e he hlater => ?_⟩
  · exact h.agree p q ((hholds p).mp hp) ((hholds q).mp hq)
  · exact h.numbered p ((hnumbers p).mp hp)
  · simp only [hnumbers]
    exact h.told e he
  · simp only [hnumbers]
    exact h.differs e he hlater

end

variable {rest : List EventedService}

theorem Turn.read (h : Turn service (.reading service rest :: ts) last current latest)
    (horderly : ∀ p, Holds (.reading service rest :: ts) service p → p = current) :
    Turn service (.comparing service current rest :: ts) last current latest := by
  have hcompares (p : Properties) :
      Compares (.comparing service current rest :: ts) service p → p = current := by
    rw [compares_cons]
    rintro (hp | hp)
    · exact (Prod.mk.inj (Option.some.inj hp)).2.symm
    · exact horderly p (.inl (compares_cons.mpr (.inr hp)))
  have hnumbers (p : Properties) : Numbers (.comparing service current rest :: ts) service p ↔
      Numbers (.reading service rest :: ts) service p := by
    simp [Task.numbers]
  have hholds (p : Properties) (hp : Holds (.comparing service current rest :: ts) service p) :
      p = current :=
    hp.elim (hcompares p) fun hp => horderly p (.inr ((hnumbers p).mp hp))
  have hbehind : ∃ p, Compares (.comparing service current rest :: ts) service p :=
    ⟨current, compares_cons.mpr (.inl rfl)⟩
  refine ⟨fun p q hp hq => ?_, fun p hp => .inl (hholds p hp), .inr (.inr (.inr hbehind)),
    fun p hp => ?_, ?_, fun _ => .inr (.inl hbehind), fun e he => ?_, fun e he hlater => ?_⟩
  · exact (hholds p hp).trans (hholds q hq).symm
  · exact h.numbered p ((hnumbers p).mp hp)
  · have hsingle := h.single
    rw [numberers_cons] at hsingle ⊢
    exact hsingle
  · simp only [hnumbers]
    exact h.told e he
  · simp only [hnumbers]
    exact h.differs e he hlater

/-- A publication that finds nothing changed ends. -/
theorem Turn.compareSame
    (h : Turn service (.comparing service p rest :: ts) (some p) current latest)
    (hread : ToRead ts' service ↔ service ∈ rest ∨ ToRead ts service)
    (hcompares : ∀ p, Compares ts' service p ↔ Compares ts service p)
    (hnumbers : ∀ p, Numbers ts' service p ↔ Numbers ts service p)
    (hcount : numberers ts' service = numberers ts service) :
    Turn service ts' (some p) current latest := by
  have hreadBefore : ToRead ts' service ↔ ToRead (.comparing service p rest :: ts) service := by
    rw [hread, toRead_cons]
    rfl
  have hnumbersBefore (q : Properties) :
      Numbers ts' service q ↔ Numbers (.comparing service p rest :: ts) service q := by
    rw [hnumbers, numbers_cons]
    simp [Task.numbers]
  have hholds (q : Properties) (hq : Holds ts' service q) :
      Holds (.comparing service p rest :: ts) service q :=
    hq.imp (fun hq => compares_cons.mpr (.inr ((hcompares q).mp hq))) (hnumbersBefore q).mp
  refine ⟨fun a b ha hb => h.agree a b (hholds a ha) (hholds b hb), fun q hq => ?_, ?_,
    fun q hq => ?_, ?_, fun hlast => absurd hlast (Option.some_ne_none p), fun e he => ?_,
    fun e he hlater => ?_⟩
  · exact (h.fresh q (hholds q hq)).imp id hreadBefore.mpr
  · rcases h.fresh p (.inl (compares_cons.mpr (.inl rfl))) with hp | hp
    · exact .inl (congrArg some hp)
    · exact .inr (.inr (.inl (hreadBefore.mpr hp)))
  · exact h.numbered q ((hnumbersBefore q).mp hq)
  · have hsingle := h.single
    rw [numberers_cons] at hsingle
    rw [hcount]
    exact hsingle
  · simp only [hnumbersBefore]
    exact h.told e he
  · simp only [hnumbersBefore]
    exact h.differs e he hlater

/-- A publication that finds something changed is the only one to number it. -/
theorem Turn.compareNew (h : Turn service (.comparing service p rest :: ts) last current latest)
    (hnew : last ≠ some p) :
    Turn service (.numbering service p rest :: ts) (some p) current latest := by
  have hheld : Holds (.comparing service p rest :: ts) service p :=
    .inl (compares_cons.mpr (.inl rfl))
  have hreadBefore : ToRead (.numbering service p rest :: ts) service ↔
      ToRead (.comparing service p rest :: ts) service := by
    rw [toRead_cons, toRead_cons]
    rfl
  -- Another one that numbers the service would number the same, and have published it.
  have hnone (q : Properties) : ¬ Numbers ts service q := by
    intro hq
    have hq' : Numbers (.comparing service p rest :: ts) service q := numbers_cons.mpr (.inr hq)
    obtain rfl : q = p := h.agree q p (.inr hq') hheld
    exact hnew (h.numbered q hq')
  have hnumbers (q : Properties) : Numbers (.numbering service p rest :: ts) service q ↔ p = q := by
    simp [Task.numbers, hnone q]
  have hholds (q : Properties) (hq : Holds (.numbering service p rest :: ts) service q) :
      Holds (.comparing service p rest :: ts) service q := by
    rcases hq with hq | hq
    · rw [compares_cons] at hq
      rcases hq with hq | hq
      · cases hq
      · exact .inl (compares_cons.mpr (.inr hq))
    · obtain rfl := (hnumbers q).mp hq
      exact hheld
  refine ⟨fun a b ha hb => h.agree a b (hholds a ha) (hholds b hb), fun q hq => ?_, ?_,
    fun q hq => congrArg some ((hnumbers q).mp hq), ?_,
    fun hlast => absurd hlast (Option.some_ne_none p),
    fun e he => .inr (.inr ⟨p, (hnumbers p).mpr rfl⟩), fun e he hlater => ⟨fun q hq heq => ?_, ?_⟩⟩
  · exact (h.fresh q (hholds q hq)).imp id hreadBefore.mpr
  · rcases h.fresh p hheld with hp | hp
    · exact .inl (congrArg some hp)
    · exact .inr (.inr (.inl (hreadBefore.mpr hp)))
  · rw [numberers_cons, numberers_eq_zero.mpr hnone]
    split <;> omega
  · obtain rfl := (hnumbers q).mp hq
    refine hnew (((h.differs e he hlater).2 fun q hq => ?_).trans (congrArg some heq))
    rw [numbers_cons] at hq
    rcases hq with hq | hq
    · cases hq
    · exact hnone q hq
  · exact fun hall => absurd ((hnumbers p).mpr rfl) (hall p)

/-- The events are numbered: every subscriber's last event is the one published.
-/
theorem Turn.number (h : Turn service (.numbering service p rest :: ts) last current latest)
    (hread : ToRead ts' service ↔ service ∈ rest ∨ ToRead ts service)
    (hcompares : ∀ p, Compares ts' service p ↔ Compares ts service p)
    (hcount : numberers ts' service = numberers ts service)
    (hlatest : ∀ e, latest' e → e.properties = p) : Turn service ts' last current latest' := by
  have hlast : last = some p := h.numbered p (numbers_cons.mpr (.inl rfl))
  have hreadBefore : ToRead ts' service ↔ ToRead (.numbering service p rest :: ts) service := by
    rw [hread, toRead_cons]
    rfl
  have hcomparesBefore (q : Properties) :
      Compares ts' service q ↔ Compares (.numbering service p rest :: ts) service q := by
    rw [hcompares, compares_cons]
    simp [Task.compares]
  have hcountBefore : numberers ts service = 0 := by
    have hsingle := h.single
    rw [numberers_cons] at hsingle
    simp only [Task.numbers, Option.map_some, beq_self_eq_true, if_true] at hsingle
    omega
  have hnone (q : Properties) : ¬ Numbers ts' service q :=
    numberers_eq_zero.mp (hcount.trans hcountBefore) q
  have hholds (q : Properties) (hq : Holds ts' service q) :
      Holds (.numbering service p rest :: ts) service q :=
    hq.imp (hcomparesBefore q).mp fun hq => absurd hq (hnone q)
  refine ⟨fun a b ha hb => h.agree a b (hholds a ha) (hholds b hb), fun q hq => ?_, ?_,
    fun q hq => absurd hq (hnone q), ?_, fun hlast' => ?_, fun e he => ?_,
    fun e he _ => ⟨fun q hq => absurd hq (hnone q), fun _ => ?_⟩⟩
  · exact (h.fresh q (hholds q hq)).imp id hreadBefore.mpr
  · simp only [hreadBefore, hcomparesBefore]
    exact h.published
  · rw [hcount, hcountBefore]
    exact Nat.zero_le 1
  · exact absurd (hlast.symm.trans hlast') (Option.some_ne_none p)
  · exact .inr (.inl (hlast.trans (congrArg some (hlatest e he).symm)))
  · exact hlast.trans (congrArg some (hlatest e he).symm)

/-- The task of an initial event reads what is the case. -/
theorem Turn.readFor (h : Turn service (.readingFor service sid :: ts) last current latest) :
    Turn service (.numberingFor service sid current :: ts) last current latest := by
  refine ⟨fun p q hp hq => ?_, fun p hp => ?_, ?_, fun p hp => ?_, ?_, fun hlast => ?_,
    fun e he => ?_, fun e he hlater => ?_⟩
  · exact h.agree p q (by simpa [Holds, Task.compares, Task.numbers] using hp)
      (by simpa [Holds, Task.compares, Task.numbers] using hq)
  · have hfresh := h.fresh p (by simpa [Holds, Task.compares, Task.numbers] using hp)
    simpa [Task.toRead] using hfresh
  · have hpublished := h.published
    simpa [Task.toRead, Task.compares] using hpublished
  · exact h.numbered p (by simpa [Task.numbers] using hp)
  · have hsingle := h.single
    rw [numberers_cons] at hsingle ⊢
    exact hsingle
  · rcases h.unpublished hlast with hto | hto | ⟨hlatest, hfor⟩
    · exact .inl (by simpa [Task.toRead] using hto)
    · exact .inr (.inl (by simpa [Task.compares] using hto))
    · refine .inr (.inr ⟨hlatest, fun other p hp => ?_⟩)
      rcases mem_cons.mp hp with hp | hp
      · exact (Task.numberingFor.inj hp).2.2
      · exact hfor other p (mem_cons_of_mem _ hp)
  · have htold := h.told e he
    simpa [Task.numbers] using htold
  · have hdiffers := h.differs e he hlater
    simpa [Task.numbers] using hdiffers

theorem Turn.numberFor (h : Turn service (.numberingFor service sid p :: ts) last current latest)
    (horderly : last = none ∨ last = some p ∨
      ∃ q, Numbers (.numberingFor service sid p :: ts) service q)
    (hlatest : ∀ e, latest' e → latest e ∨ e.initial = true ∧ e.properties = p) :
    Turn service ts last current latest' := by
  have hread : ToRead (.numberingFor service sid p :: ts) service ↔ ToRead ts service := by
    simp [Task.toRead]
  have hcompares (q : Properties) :
      Compares (.numberingFor service sid p :: ts) service q ↔ Compares ts service q := by
    simp [Task.compares]
  have hnumbers (q : Properties) :
      Numbers (.numberingFor service sid p :: ts) service q ↔ Numbers ts service q := by
    simp [Task.numbers]
  refine ⟨fun a b ha hb => ?_, fun q hq => ?_, ?_, fun q hq => ?_, ?_, fun hlast => ?_,
    fun e he => ?_, fun e he hlater => ?_⟩
  · exact h.agree a b (ha.imp (hcompares a).mpr (hnumbers a).mpr)
      (hb.imp (hcompares b).mpr (hnumbers b).mpr)
  · exact (h.fresh q (hq.imp (hcompares q).mpr (hnumbers q).mpr)).imp id hread.mp
  · simpa only [hread, hcompares] using h.published
  · exact h.numbered q ((hnumbers q).mpr hq)
  · have hsingle := h.single
    rw [numberers_cons] at hsingle
    exact hsingle
  · rcases h.unpublished hlast with hto | ⟨q, hto⟩ | ⟨hcurrent, hfor⟩
    · exact .inl (hread.mp hto)
    · exact .inr (.inl ⟨q, (hcompares q).mp hto⟩)
    · refine .inr (.inr ⟨fun e he => ?_, fun other q hq => ?_⟩)
      · rcases hlatest e he with he | ⟨-, he⟩
        · exact hcurrent e he
        · exact he.trans (hfor sid p (mem_cons_self ..))
      · exact hfor other q (mem_cons_of_mem _ hq)
  · rcases hlatest e he with he | ⟨-, he⟩
    · simpa only [hnumbers] using h.told e he
    · rw [he]
      simpa only [hnumbers] using horderly
  · rcases hlatest e he with he | ⟨hinitial, -⟩
    · simpa only [hnumbers] using h.differs e he hlater
    · exact absurd (hlater.symm.trans hinitial) Bool.false_ne_true

end Turn

/-! ## The numbers of a subscription -/

theorem seqAt_succ (n : ℕ) :
    (if seqAt n + 1 < 2 ^ 32 then seqAt n + 1 else 1) = seqAt (n + 1) := by
  unfold seqAt
  rcases Nat.eq_zero_or_pos n with rfl | hn
  · rfl
  · rw [if_neg hn.ne', if_neg n.succ_ne_zero]
    split <;> omega

theorem seqAt_eq_zero {n : ℕ} : seqAt n = 0 ↔ n = 0 := by
  unfold seqAt
  split <;> omega

section Lists

variable {α β : Type*} {p : α → Bool} {f : α → α} {key : α → β} {l : List α} {x y : α}

theorem map_modifyFirst (hkey : ∀ x, key (f x) = key x) :
    (modifyFirst p f l).map key = l.map key := by
  induction l with
  | nil => rfl
  | cons x xs ih =>
    rw [modifyFirst]
    split
    · rw [map_cons, map_cons, hkey]
    · rw [map_cons, map_cons, ih]

/-- Where one key fits, the first fit is the only one. -/
theorem mem_modifyFirst (hkeys : (l.map key).Nodup) {k : β} (hp : ∀ x, p x → key x = k)
    (hy : y ∈ modifyFirst p f l) : ∃ x ∈ l, p x = true ∧ y = f x ∨ p x = false ∧ y = x := by
  induction l with
  | nil => cases hy
  | cons x xs ih =>
    rw [map_cons, nodup_cons] at hkeys
    rw [modifyFirst] at hy
    cases hpx : p x with
    | true =>
      rw [hpx, if_pos rfl] at hy
      rcases mem_cons.mp hy with rfl | hy
      · exact ⟨x, mem_cons_self .., .inl ⟨hpx, rfl⟩⟩
      · refine ⟨y, mem_cons_of_mem _ hy, .inr ⟨?_, rfl⟩⟩
        by_contra hpy
        have hsame : key y = key x := (hp y (by simpa using hpy)).trans (hp x hpx).symm
        exact hkeys.1 (hsame ▸ mem_map_of_mem hy)
    | false =>
      rw [hpx, if_neg Bool.false_ne_true] at hy
      rcases mem_cons.mp hy with rfl | hy
      · exact ⟨y, mem_cons_self .., .inr ⟨hpx, rfl⟩⟩
      · obtain ⟨z, hz, hcases⟩ := ih hkeys.2 hy
        exact ⟨z, mem_cons_of_mem _ hz, hcases⟩

theorem filter_key [BEq β] [LawfulBEq β] (hkeys : (l.map key).Nodup) (hx : x ∈ l) :
    l.filter (fun y => key y == key x) = [x] := by
  induction l with
  | nil => cases hx
  | cons z l ih =>
    rw [map_cons, nodup_cons] at hkeys
    rcases mem_cons.mp hx with rfl | hx
    · have hnone : l.filter (fun y => key y == key x) = [] := by
        rw [filter_eq_nil_iff]
        intro y hy hsame
        exact hkeys.1 (eq_of_beq hsame ▸ mem_map_of_mem hy)
      rw [filter_cons, hnone, if_pos (beq_self_eq_true (key x))]
    · have hne : ¬ (key z == key x) = true := fun hsame =>
        hkeys.1 (eq_of_beq hsame ▸ mem_map_of_mem hx)
      rw [filter_cons, if_neg hne, ih hkeys.2 hx]

theorem eq_of_key (hkeys : (l.map key).Nodup) (hx : x ∈ l) (hy : y ∈ l) (h : key x = key y) :
    x = y := inj_on_of_nodup_map hkeys hx hy h

end Lists

/-- Every subscription is one of its own, and its numbers have no gap. -/
structure Books (s : Service) : Prop where
  sids : (s.subscribers.map (·.sid)).Nodup
  known : ∀ sub ∈ s.subscribers, sub.sid ∈ s.minted
  handedKnown : ∀ e ∈ s.handed, e.sid ∈ s.minted
  sequence : ∀ sid,
    (s.handedTo sid).map (·.seq) = (List.range (s.handedTo sid).length).map seqAt
  next : ∀ sub ∈ s.subscribers, sub.seq = seqAt (s.handedTo sub.sid).length

/-- Which subscribers wait for their initial event. -/
structure Openings (s : Service) : Prop where
  known : ∀ service sid, Opening s.tasks service sid → sid ∈ s.minted
  served : ∀ sub ∈ s.subscribers, ∀ service, Opening s.tasks service sub.sid →
    service = sub.service
  once : ((s.tasks.filterMap Task.opening).map (·.2)).Nodup
  unopened : ∀ service sid, Opening s.tasks service sid → s.handedTo sid = []
  opened : ∀ sub ∈ s.subscribers, sub.live s.now = true →
    Opening s.tasks sub.service sub.sid ∨ s.handedTo sub.sid ≠ []
  initial : ∀ e ∈ s.handed, e.seq = 0 ↔ e.initial = true

/-- A step numbers the event `ev sub` for every subscription with `P`.  Others
may end, be extended, or stay as they are. -/
structure Hands (s s' : Service) (P : Subscription → Prop) (ev : Subscription → Handed) : Prop where
  minted : s'.minted = s.minted
  sids : (s.subscribers.map (·.sid)).Nodup → (s'.subscribers.map (·.sid)).Nodup
  subs : ∀ sub' ∈ s'.subscribers, ∃ sub ∈ s.subscribers,
    sub'.sid = sub.sid ∧ sub'.service = sub.service ∧
      (sub'.live s'.now = true → sub.live s.now = true) ∧
      (P sub ∧ sub'.seq = sub.takeSeq.seq ∨ ¬ P sub ∧ sub'.seq = sub.seq)
  handed : ∀ sid, (∀ sub ∈ s.subscribers, sub.sid = sid → ¬ P sub) ∧
      s'.handedTo sid = s.handedTo sid ∨
    ∃ sub ∈ s.subscribers, sub.sid = sid ∧ P sub ∧ s'.handedTo sid = s.handedTo sid ++ [ev sub]
  named : ∀ sub, (ev sub).sid = sub.sid ∧ (ev sub).seq = sub.seq

section Hands

variable {s s' : Service} {P : Subscription → Prop} {ev : Subscription → Handed}

theorem mem_handedTo {e : Handed} {sid : String} :
    e ∈ s.handedTo sid ↔ e ∈ s.handed ∧ e.sid = sid := by
  simp [Service.handedTo]

theorem Hands.handedTo_pos (h : Hands s s' P ev) (hbooks : Books s) {sub : Subscription}
    (hsub : sub ∈ s.subscribers) (hP : P sub) :
    s'.handedTo sub.sid = s.handedTo sub.sid ++ [ev sub] := by
  rcases h.handed sub.sid with ⟨hnone, -⟩ | ⟨other, hother, hsid, -, heq⟩
  · exact absurd hP (hnone sub hsub rfl)
  · obtain rfl : other = sub := eq_of_key hbooks.sids hother hsub hsid
    exact heq

theorem Hands.handedTo_neg (h : Hands s s' P ev) (hbooks : Books s) {sub : Subscription}
    (hsub : sub ∈ s.subscribers) (hP : ¬ P sub) : s'.handedTo sub.sid = s.handedTo sub.sid := by
  rcases h.handed sub.sid with ⟨-, heq⟩ | ⟨other, hother, hsid, hPother, -⟩
  · exact heq
  · obtain rfl : other = sub := eq_of_key hbooks.sids hother hsub hsid
    exact absurd hPother hP

/-- An event handed out by now was handed out before or in this step. -/
theorem Hands.mem (h : Hands s s' P ev) {e : Handed} (he : e ∈ s'.handed) :
    e ∈ s.handed ∨ ∃ sub ∈ s.subscribers, P sub ∧ e = ev sub := by
  have hto : e ∈ s'.handedTo e.sid := mem_handedTo.mpr ⟨he, rfl⟩
  rcases h.handed e.sid with ⟨-, heq⟩ | ⟨sub, hsub, -, hP, heq⟩
  · exact .inl (mem_handedTo.mp (heq ▸ hto)).1
  · rcases mem_append.mp (heq ▸ hto) with hbefore | hnew
    · exact .inl (mem_handedTo.mp hbefore).1
    · exact .inr ⟨sub, hsub, hP, mem_singleton.mp hnew⟩

/-- **Whatever is numbered, the numbers of a subscription have no gap.** -/
theorem Books.hands (hbooks : Books s) (h : Hands s s' P ev) : Books s' where
  sids := h.sids hbooks.sids
  known := by
    intro sub' hsub'
    obtain ⟨sub, hsub, hsid, -⟩ := h.subs sub' hsub'
    rw [h.minted, hsid]
    exact hbooks.known sub hsub
  handedKnown := by
    intro e he
    rw [h.minted]
    rcases h.mem he with he | ⟨sub, hsub, -, rfl⟩
    · exact hbooks.handedKnown e he
    · rw [(h.named sub).1]
      exact hbooks.known sub hsub
  sequence := by
    intro sid
    rcases h.handed sid with ⟨-, heq⟩ | ⟨sub, hsub, rfl, -, heq⟩
    · rw [heq]
      exact hbooks.sequence sid
    · have hnext : (ev sub).seq = seqAt (s.handedTo sub.sid).length :=
        (h.named sub).2.trans (hbooks.next sub hsub)
      rw [heq, length_append, length_singleton, range_succ, map_append,
        map_append, hbooks.sequence sub.sid, map_singleton, map_singleton, hnext]
  next := by
    intro sub' hsub'
    obtain ⟨sub, hsub, hsid, -, -, ⟨hP, hseq⟩ | ⟨hP, hseq⟩⟩ := h.subs sub' hsub'
    · calc sub'.seq = sub.takeSeq.seq := hseq
        _ = if sub.seq + 1 < 2 ^ 32 then sub.seq + 1 else 1 := rfl
        _ = seqAt ((s.handedTo sub.sid).length + 1) := by rw [hbooks.next sub hsub, seqAt_succ]
        _ = seqAt (s'.handedTo sub'.sid).length := by
            rw [hsid, h.handedTo_pos hbooks hsub hP, length_append, length_singleton]
    · rw [hseq, hsid, h.handedTo_neg hbooks hsub hP]
      exact hbooks.next sub hsub

theorem Openings.hands (hopen : Openings s) (hbooks : Books s) (h : Hands s s' P ev)
    (hless : ∀ service sid, Opening s'.tasks service sid → Opening s.tasks service sid)
    (hkept : ∀ sub ∈ s.subscribers, sub.live s.now = true →
      Opening s.tasks sub.service sub.sid → Opening s'.tasks sub.service sub.sid ∨ P sub)
    (honce : ((s'.tasks.filterMap Task.opening).map (·.2)).Nodup)
    (hclosed : ∀ sub ∈ s.subscribers, P sub → ∀ service, ¬ Opening s'.tasks service sub.sid)
    (hinitial : ∀ sub ∈ s.subscribers, P sub → ((ev sub).seq = 0 ↔ (ev sub).initial = true)) :
    Openings s' where
  known := fun service sid ho => h.minted ▸ hopen.known service sid (hless service sid ho)
  served := by
    intro sub' hsub' service ho
    obtain ⟨sub, hsub, hsid, hservice, -⟩ := h.subs sub' hsub'
    rw [hservice]
    exact hopen.served sub hsub service (hsid ▸ hless service sub'.sid ho)
  once := honce
  unopened := by
    intro service sid ho
    have hbefore := hopen.unopened service sid (hless service sid ho)
    rcases h.handed sid with ⟨-, heq⟩ | ⟨sub, hsub, rfl, hP, -⟩
    · exact heq.trans hbefore
    · exact absurd ho (hclosed sub hsub hP service)
  opened := by
    intro sub' hsub' hlive
    obtain ⟨sub, hsub, hsid, hservice, hlives, -⟩ := h.subs sub' hsub'
    rw [hsid, hservice]
    by_cases hP : P sub
    · rw [h.handedTo_pos hbooks hsub hP]
      exact .inr (append_ne_nil_of_right_ne_nil _ (cons_ne_nil _ _))
    · rw [h.handedTo_neg hbooks hsub hP]
      refine (hopen.opened sub hsub (hlives hlive)).imp (fun ho => ?_) id
      exact (hkept sub hsub (hlives hlive) ho).resolve_right hP
  initial := by
    intro e he
    rcases h.mem he with he | ⟨sub, hsub, hP, rfl⟩
    · exact hopen.initial e he
    · exact hinitial sub hsub hP

theorem Hands.changes (h : Hands s s' P ev) (hchanges : ∀ sid, (s.handedTo sid).IsChain Follows)
    (hfollows : ∀ sub ∈ s.subscribers, P sub → ∀ e, (s.handedTo sub.sid).getLast? = some e →
      Follows e (ev sub)) (sid : String) : (s'.handedTo sid).IsChain Follows := by
  rcases h.handed sid with ⟨-, heq⟩ | ⟨sub, hsub, rfl, hP, heq⟩
  · rw [heq]
    exact hchanges sid
  · rw [heq, isChain_append]
    refine ⟨hchanges sub.sid, isChain_singleton _, fun e he e' he' => ?_⟩
    obtain rfl : ev sub = e' := by simpa using he'
    exact hfollows sub hsub hP e he

def Service.latest (s : Service) (service : EventedService) (e : Handed) : Prop :=
  ∃ sub ∈ s.subscribers, sub.service = service ∧ (s.handedTo sub.sid).getLast? = some e

theorem Hands.latest (h : Hands s s' P ev) (hbooks : Books s) {service : EventedService}
    {e : Handed} (he : s'.latest service e) :
    s.latest service e ∨ ∃ sub ∈ s.subscribers, sub.service = service ∧ P sub ∧ e = ev sub := by
  obtain ⟨sub', hsub', rfl, hlast⟩ := he
  obtain ⟨sub, hsub, hsid, hservice, -⟩ := h.subs sub' hsub'
  rw [hsid] at hlast
  by_cases hP : P sub
  · rw [h.handedTo_pos hbooks hsub hP, getLast?_concat] at hlast
    exact .inr ⟨sub, hsub, hservice.symm, hP, (Option.some.inj hlast).symm⟩
  · rw [h.handedTo_neg hbooks hsub hP] at hlast
    exact .inl ⟨sub, hsub, hservice.symm, hlast⟩

end Hands

/-! ## What the steps do to the table -/

def Trims (s s' : Service) : Prop :=
  Hands s s' (fun _ => False) fun sub => ⟨sub.sid, sub.service, sub.seq, [], true⟩

section Trims

variable {s s' : Service}

theorem Trims.intro (hminted : s'.minted = s.minted) (hhanded : s'.handed = s.handed)
    (hsids : (s.subscribers.map (·.sid)).Nodup → (s'.subscribers.map (·.sid)).Nodup)
    (hsubs : ∀ sub' ∈ s'.subscribers, ∃ sub ∈ s.subscribers,
      sub'.sid = sub.sid ∧ sub'.service = sub.service ∧ sub'.seq = sub.seq ∧
        (sub'.live s'.now = true → sub.live s.now = true)) : Trims s s' where
  minted := hminted
  sids := hsids
  subs := by
    intro sub' hsub'
    obtain ⟨sub, hsub, hsid, hservice, hseq, hlive⟩ := hsubs sub' hsub'
    exact ⟨sub, hsub, hsid, hservice, hlive, .inr ⟨not_false, hseq⟩⟩
  handed := by
    intro sid
    refine .inl ⟨fun _ _ _ => not_false, ?_⟩
    rw [Service.handedTo, hhanded, Service.handedTo]
  named := fun _ => ⟨rfl, rfl⟩

theorem Trims.filter {subs : Subscribers} {q : Subscription → Bool}
    (hsubs : subs = s.subscribers.filter q) : Trims s { s with subscribers := subs } := by
  subst hsubs
  refine .intro rfl rfl (fun h => h.sublist (List.filter_sublist.map _)) fun sub' hsub' => ?_
  exact ⟨sub', (mem_filter.mp hsub').1, rfl, rfl, rfl, id⟩

theorem Trims.passes (s : Service) (d : Duration) : Trims s { s with now := s.now + d } := by
  refine .intro rfl rfl id fun sub' hsub' => ⟨sub', hsub', rfl, rfl, rfl, fun hlive => ?_⟩
  rw [Subscription.live, decide_eq_true_eq] at hlive ⊢
  exact Nat.lt_of_le_of_lt (Nat.le_add_right s.now d) hlive

theorem Trims.modify {sid : String} {q : Subscription → Bool} {f : Subscription → Subscription}
    (hbooks : Books s) (hq : ∀ sub, q sub → sub.sid = sid)
    (hf : ∀ sub, (f sub).sid = sub.sid ∧ (f sub).service = sub.service ∧ (f sub).seq = sub.seq)
    (hlive : ∀ sub, q sub = true → (f sub).live s.now = true → sub.live s.now = true) :
    Trims s { s with subscribers := modifyFirst q f s.subscribers } := by
  refine .intro rfl rfl (fun h => ?_) fun sub' hsub' => ?_
  · rw [map_modifyFirst fun sub => (hf sub).1]
    exact h
  · obtain ⟨sub, hsub, ⟨hqsub, rfl⟩ | ⟨-, rfl⟩⟩ := mem_modifyFirst hbooks.sids hq hsub'
    · exact ⟨sub, hsub, (hf sub).1, (hf sub).2.1, (hf sub).2.2, hlive sub hqsub⟩
    · exact ⟨sub', hsub, rfl, rfl, rfl, id⟩

theorem holds_sid {sid : String} {now : ℕ} {sub : Subscription}
    (h : Subscribers.holds sid now sub = true) : sub.sid = sid ∧ sub.live now = true := by
  rw [Subscribers.holds, Bool.and_eq_true, beq_iff_eq] at h
  exact h

theorem Trims.renew (hbooks : Books s) (sid : String) :
    Trims s { s with subscribers := Subscribers.renew s.subscribers sid s.now } :=
  .modify hbooks (fun _ h => (holds_sid h).1) (fun _ => ⟨rfl, rfl, rfl⟩)
    fun _ h _ => (holds_sid h).2

theorem Trims.delivered (hbooks : Books s) (sid : String) :
    Trims s { s with subscribers := Subscribers.delivered s.subscribers sid } :=
  .modify hbooks (fun _ h => eq_of_beq h) (fun _ => ⟨rfl, rfl, rfl⟩) fun _ _ h => h

theorem Trims.deliveryFailed (hbooks : Books s) (sid : String) :
    Trims s { s with subscribers := Subscribers.deliveryFailed s.subscribers sid } := by
  unfold Subscribers.deliveryFailed
  split
  · exact .intro rfl rfl id fun sub hsub => ⟨sub, hsub, rfl, rfl, rfl, id⟩
  · split
    · exact .filter rfl
    · exact .modify hbooks (fun _ h => eq_of_beq h) (fun _ => ⟨rfl, rfl, rfl⟩) fun _ _ h => h

theorem Trims.send (hbooks : Books s) (sid : String) (callbacks : List String)
    (answers : String → Bool) : Trims s (s.send sid callbacks answers) := by
  unfold Service.send
  split
  · exact .delivered hbooks sid
  · exact .deliveryFailed hbooks sid

end Trims

section Numbering

variable {s : Service} {service : EventedService} {p : Properties} {rest : List EventedService}
  {sid : String}

def eventOf (service : EventedService) (p : Properties) (initial : Bool) (sub : Subscription) :
    Handed := ⟨sub.sid, service, sub.seq, p, initial⟩

theorem number_handed : (s.number service p rest).1.handed = s.handed ++
    ((Subscribers.expire s.subscribers s.now).filter (Subscribers.wants service s.now)).map
      (eventOf service p false) := by
  unfold Service.number Subscribers.batch
  dsimp only
  rw [map_map]
  rfl

theorem wants_iff {now : ℕ} {sub : Subscription} :
    Subscribers.wants service now sub = true ↔ sub.service = service ∧ sub.live now = true := by
  rw [Subscribers.wants, Bool.and_eq_true, beq_iff_eq]

theorem mem_expire {now : ℕ} {sub : Subscription} {subs : Subscribers} :
    sub ∈ Subscribers.expire subs now ↔ sub ∈ subs ∧ sub.live now = true := mem_filter

/-- `publish_if_changed` numbers an event for every live subscriber of the
service. -/
theorem hands_number (hbooks : Books s) :
    Hands s (s.number service p rest).1 (fun sub => Subscribers.wants service s.now sub = true)
      (eventOf service p false) where
  minted := rfl
  sids := by
    intro h
    have hsame : ((Subscribers.expire s.subscribers s.now).prepare service s.now).map (·.sid) =
        (Subscribers.expire s.subscribers s.now).map (·.sid) := by
      rw [Subscribers.prepare, map_map]
      refine map_congr_left fun sub _ => ?_
      rw [Function.comp_apply]
      split <;> rfl
    exact hsame ▸ h.sublist (List.filter_sublist.map _)
  subs := by
    intro sub' hsub'
    obtain ⟨sub, hsub, rfl⟩ := mem_map.mp hsub'
    obtain ⟨hmem, hlive⟩ := mem_expire.mp hsub
    by_cases hwants : Subscribers.wants service s.now sub = true
    · rw [if_pos hwants]
      exact ⟨sub, hmem, rfl, rfl, fun _ => hlive, .inl ⟨hwants, rfl⟩⟩
    · rw [if_neg hwants]
      exact ⟨sub, hmem, rfl, rfl, fun _ => hlive, .inr ⟨hwants, rfl⟩⟩
  handed := by
    intro sid
    have hchunk : (s.number service p rest).1.handedTo sid = s.handedTo sid ++
        (((Subscribers.expire s.subscribers s.now).filter
          (Subscribers.wants service s.now)).filter fun sub => sub.sid == sid).map
            (eventOf service p false) := by
      rw [Service.handedTo, number_handed, filter_append, filter_map]
      rfl
    by_cases hany : ∃ sub ∈ s.subscribers, sub.sid = sid ∧
        Subscribers.wants service s.now sub = true
    · obtain ⟨sub, hsub, rfl, hwants⟩ := hany
      have hmem : sub ∈ (Subscribers.expire s.subscribers s.now).filter
          (Subscribers.wants service s.now) :=
        mem_filter.mpr ⟨mem_expire.mpr ⟨hsub, (wants_iff.mp hwants).2⟩, hwants⟩
      have hnodup : (((Subscribers.expire s.subscribers s.now).filter
          (Subscribers.wants service s.now)).map (·.sid)).Nodup :=
        hbooks.sids.sublist ((List.filter_sublist.trans filter_sublist).map _)
      refine .inr ⟨sub, hsub, rfl, hwants, ?_⟩
      rw [hchunk, filter_key hnodup hmem, map_singleton]
    · refine .inl ⟨fun sub hsub hsid hwants => hany ⟨sub, hsub, hsid, hwants⟩, ?_⟩
      rw [hchunk]
      refine append_right_eq_self.mpr (map_eq_nil_iff.mpr ?_)
      rw [filter_eq_nil_iff]
      intro sub hsub hsid
      obtain ⟨hexpire, hwants⟩ := mem_filter.mp hsub
      exact hany ⟨sub, (mem_expire.mp hexpire).1, eq_of_beq hsid, hwants⟩
  named := fun _ => ⟨rfl, rfl⟩

/-- Whoever is left in the table has been handed the event. -/
theorem latest_number (hbooks : Books s) {e : Handed}
    (he : (s.number service p rest).1.latest service e) : e.properties = p := by
  obtain ⟨sub', hsub', hservice, hlast⟩ := he
  obtain ⟨sub, hsub, rfl⟩ := mem_map.mp hsub'
  obtain ⟨hmem, hlive⟩ := mem_expire.mp hsub
  have hsame : sub.service = service := by
    rw [← hservice]
    split <;> rfl
  have hwants : Subscribers.wants service s.now sub = true := wants_iff.mpr ⟨hsame, hlive⟩
  rw [if_pos hwants] at hlast
  have hto := (@hands_number s service p rest hbooks).handedTo_pos hbooks hmem hwants
  have hevent : (s.handedTo sub.sid ++ [eventOf service p false sub]).getLast? = some e :=
    hto ▸ hlast
  rw [getLast?_concat] at hevent
  rw [← Option.some.inj hevent]
  rfl

/-- `publish_to` numbers the event of one live subscriber, if it is still there.
-/
theorem numberFor_none (hnone : ∀ sub ∈ s.subscribers, Subscribers.holds sid s.now sub = false) :
    s.numberFor service sid p = (s, none) := by
  have hfind : s.subscribers.find? (Subscribers.holds sid s.now) = none :=
    List.find?_eq_none.mpr fun sub hsub => by simp [hnone sub hsub]
  unfold Service.numberFor Subscribers.one
  rw [hfind]
  rfl

theorem numberFor_some (hbooks : Books s) {sub : Subscription} (hsub : sub ∈ s.subscribers)
    (hholds : Subscribers.holds sid s.now sub = true) : s.numberFor service sid p =
      ({ s with
        subscribers := Subscribers.prepareOne s.subscribers sid s.now
        handed := s.handed ++ [eventOf service p true sub] },
        some (.deliveringTo sid sub.callbacks)) := by
  obtain ⟨other, hfind⟩ := Option.isSome_iff_exists.mp (List.find?_isSome.mpr ⟨sub, hsub, hholds⟩)
  have hother : other = sub :=
    eq_of_key hbooks.sids (mem_of_find?_eq_some hfind) hsub
      ((holds_sid (find?_some hfind)).1.trans (holds_sid hholds).1.symm)
  unfold Service.numberFor Subscribers.one
  rw [hfind, hother]
  simp only [Option.map_some, eventOf, (holds_sid hholds).1]

theorem hands_numberFor (hbooks : Books s) {sub : Subscription} (hsub : sub ∈ s.subscribers)
    (hholds : Subscribers.holds sid s.now sub = true) :
    Hands s (s.numberFor service sid p).1 (fun sub => Subscribers.holds sid s.now sub = true)
      (eventOf service p true) := by
  rw [numberFor_some hbooks hsub hholds]
  refine ⟨rfl, fun h => ?_, fun sub' hsub' => ?_, fun other => ?_, fun _ => ⟨rfl, rfl⟩⟩
  · have hsame : (Subscribers.prepareOne s.subscribers sid s.now).map (·.sid) =
        s.subscribers.map (·.sid) := map_modifyFirst fun _ => rfl
    exact hsame ▸ h
  · obtain ⟨before, hbefore, ⟨hq, rfl⟩ | ⟨hq, rfl⟩⟩ :=
      mem_modifyFirst hbooks.sids (fun _ h => (holds_sid h).1) hsub'
    · exact ⟨before, hbefore, rfl, rfl, id, .inl ⟨hq, rfl⟩⟩
    · exact ⟨sub', hbefore, rfl, rfl, id, .inr ⟨by simp [hq], rfl⟩⟩
  · by_cases hsid : sub.sid = other
    · refine .inr ⟨sub, hsub, hsid, hholds, ?_⟩
      have hevent : ((eventOf service p true sub).sid == other) = true := beq_iff_eq.mpr hsid
      rw [Service.handedTo, filter_append, Service.handedTo, filter_cons,
        filter_nil, if_pos hevent]
    · refine .inl ⟨fun sub' hsub' hsid' hholds' => hsid ?_, ?_⟩
      · rw [← hsid', (holds_sid hholds).1, (holds_sid hholds').1]
      · have hevent : ¬ ((eventOf service p true sub).sid == other) = true :=
          fun h => hsid (eq_of_beq h)
        rw [Service.handedTo, filter_append, Service.handedTo, filter_cons,
          filter_nil, if_neg hevent, append_nil]

end Numbering

end Castaway.Dlna
