import Castaway.Lib.Runs
import Castaway.Rtp.Reorder
import Mathlib

/-!
# Runs of the reorder buffer

Whoever owns a reorder buffer pushes a packet and pops until there is nothing to
pop (`Session.arrive`).  In between the buffer is `Settled`: it waits at a hole
with no more than `max_depth` packets behind it.

## Strategy

`Kept` and `Fair` say what that comes to over a run: every packet is popped once
and in its place, or held, or refused with reason, and a number is given up only
when nothing of it has come and too much has come behind it.
-/

namespace Castaway.Rtp

open List

variable {β : Type*}

/-! ## Sessions -/

/-- A buffer with what has become of everything pushed so far. -/
structure Session (β : Type*) where
  buffer : ReorderBuffer (Arrival β)
  popped : List (Arrival β)
  refused : List (Refusal × Arrival β)

namespace Session

def new (maxDepth : ℕ) : Session β := ⟨.new maxDepth, [], []⟩

def arrive (s : Session β) (a : Arrival β) : Session β :=
  let pushed := s.buffer.push a.packet
  let drained := pushed.2.drain
  { buffer := drained.2
    popped := s.popped ++ drained.1.map (·.content)
    refused := match pushed.1 with
      | .ok () => s.refused
      | .error refusal => s.refused ++ [(refusal, a)] }

def run (maxDepth : ℕ) (arrivals : List (Arrival β)) : Session β :=
  arrivals.foldl arrive (new maxDepth)

def due (s : Session β) : Option ℤ := s.popped.getLast?.map (·.number + 1)

/-- The packet comes within 2¹⁵ of the one that is due. -/
def Near (s : Session β) (a : Arrival β) : Prop := ∀ due ∈ s.due, |a.number - due| < 32768

instance (s : Session β) (a : Arrival β) : Decidable (s.Near a) :=
  inferInstanceAs (Decidable (∀ due ∈ s.due, |a.number - due| < 32768))

/-- With `a`, the buffer gives up on number `k`. -/
def GivesUp (s : Session β) (a : Arrival β) (k : ℤ) : Prop :=
  (∃ due ∈ s.due, due ≤ k) ∧ (∃ due ∈ (s.arrive a).due, k < due) ∧
    k ∉ numbers (s.arrive a).popped

/-- The packets behind the hole at `due`, once `a` has been pushed. -/
def behind (s : Session β) (a : Arrival β) (due : ℤ) : List (Arrival β) :=
  (s.buffer.push a.packet).2.held.filter fun c => due < c.number

/-- The buffer has been drained. -/
structure Settled (maxDepth : ℕ) (s : Session β) (first due : ℤ) : Prop
    extends Tracks maxDepth s.popped s.buffer first due where
  due_eq : s.due = some due
  first_eq : ∀ a ∈ s.popped.head?, a.number = first
  hole : due ∉ numbers s.buffer.held
  short : s.buffer.held.length ≤ maxDepth

namespace Settled

variable {maxDepth : ℕ} {s : Session β} {first due : ℤ}

theorem popped_ne_nil (h : Settled maxDepth s first due) : s.popped ≠ [] := by
  intro hnil
  have hdue := h.due_eq
  rw [Session.due, hnil] at hdue
  cases hdue

theorem drain_eq (h : Settled maxDepth s first due) : s.buffer.drain = ([], s.buffer) := by
  rw [ReorderBuffer.drain]
  cases s.buffer.buf.length with
  | zero => rfl
  | succ n => rw [ReorderBuffer.popUntil, h.pop_of_notMem h.hole]

/-- A packet that is refused changes nothing but the account of what was
refused. -/
theorem arrive_of_error (h : Settled maxDepth s first due) {a : Arrival β} {refusal : Refusal}
    (hpush : s.buffer.push a.packet = (.error refusal, s.buffer)) :
    s.arrive a = { s with refused := s.refused ++ [(refusal, a)] } := by
  simp only [arrive, hpush, h.drain_eq, map_nil, append_nil]

end Settled

/-- What a push that was accepted leads to, once the buffer is drained. -/
theorem arrive_of_ok {maxDepth : ℕ} {s : Session β} {a : Arrival β}
    {b : ReorderBuffer (Arrival β)} {first due : ℤ}
    (hpush : s.buffer.push a.packet = (.ok (), b)) (h : Tracks maxDepth s.popped b first due)
    (hfirst : ∀ c ∈ s.popped.head?, c.number = first) (hstart : s.popped = [] → due = first)
    (hlast : due ∈ numbers b.held ∨ s.due = some due)
    (hlong : b.held.length ≤ maxDepth ∨ b.held.length ≤ maxDepth + 1 ∧ due ∈ numbers b.held) :
    ∃ out due', (s.arrive a).popped = s.popped ++ out ∧ (s.arrive a).refused = s.refused ∧
      b.held.Perm (out ++ (s.arrive a).buffer.held) ∧ due' = due + out.length ∧
      (∀ k, due ≤ k → k < due' → k ∈ numbers out) ∧
      Settled maxDepth (s.arrive a) first due' := by
  obtain ⟨out, b', due', hout, htracks, hhole, hperm, hlength, hnonempty, hnewest, holdest,
    hevery⟩ := h.popUntil b.buf.length (le_refl _)
  have hdrain : b.drain = (out.map Arrival.packet, b') := hout
  have hcontent : (out.map Arrival.packet).map (·.content) = out := by
    rw [map_map]
    exact map_id _
  have harrive : s.arrive a = ⟨b', s.popped ++ out, s.refused⟩ := by
    simp only [arrive, hpush, hdrain, hcontent]
  have hheld : b.held.length = out.length + b'.held.length := by
    rw [hperm.length_eq, length_append]
  rw [harrive]
  refine ⟨out, due', rfl, rfl, hperm, hlength, hevery, htracks, ?_, fun c hc => ?_, hhole, ?_⟩
  · rw [Session.due]
    cases hgot : out.getLast? with
    | none =>
      rw [getLast?_eq_none_iff] at hgot
      have hdue : s.due = some due := hlast.resolve_left fun hmem => hnonempty hmem hgot
      simp only [hgot, append_nil] at hlength ⊢
      rw [← Session.due, hdue, hlength]
      simp
    | some c =>
      rw [getLast?_append, hgot]
      exact congrArg some (hnewest c hgot)
  · show c.number = first
    rw [head?_append] at hc
    cases hgot : s.popped.head? with
    | none =>
      rw [hgot, Option.none_or] at hc
      rw [holdest c hc]
      exact hstart (List.head?_eq_none_iff.mp hgot)
    | some d =>
      rw [hgot] at hc
      obtain rfl : d = c := by simpa using hc
      exact hfirst d hgot
  · rcases hlong with hshort | ⟨hlong, hmem⟩
    · show b'.held.length ≤ maxDepth
      omega
    · have hpos := length_pos_iff.mpr (hnonempty hmem)
      show b'.held.length ≤ maxDepth
      omega

/-! ## What becomes of every packet -/

/-- Nothing that was pushed is lost, and what was never popped is counted. -/
structure Kept (maxDepth : ℕ) (arrivals : List (Arrival β)) (s : Session β) : Prop where
  sorted : (numbers s.popped).Pairwise (· < ·)
  accounted : arrivals.Perm (s.popped ++ s.buffer.held ++ s.refused.map Prod.snd)
  short : s.buffer.held.length ≤ maxDepth
  next : s.buffer.next = s.due.map UInt16.ofInt
  counted : ∀ first ∈ (numbers s.popped).head?, ∀ due ∈ s.due,
    s.buffer.skipped = ((Finset.Ico first due).filter (· ∉ numbers s.popped)).card

/-- After `earlier`, `a` is refused with reason only, and a hole is given up
with reason only. -/
structure Fair (maxDepth : ℕ) (earlier : List (Arrival β)) (s : Session β) (a : Arrival β) :
    Prop where
  late : (s.buffer.push a.packet).1 = .error .late ↔ ∃ due ∈ s.due, a.number < due
  duplicate : (s.buffer.push a.packet).1 = .error .duplicate ↔ a.number ∈ numbers s.buffer.held
  givesUp : (∃ k, s.GivesUp a k) ↔ ∃ due ∈ s.due, maxDepth < (s.behind a due).length
  arrived : ∀ k, s.GivesUp a k → k ∉ numbers (earlier ++ [a])

/-- The account of a session, with the first number and the one that is due. -/
structure Accounts (maxDepth : ℕ) (arrivals : List (Arrival β)) (s : Session β) (first due : ℤ) :
    Prop extends Settled maxDepth s first due where
  accounted : arrivals.Perm (s.popped ++ s.buffer.held ++ s.refused.map Prod.snd)
  seen : ∀ a ∈ arrivals, a.number < due ∨ a.number ∈ numbers s.buffer.held

namespace Accounts

variable {maxDepth : ℕ} {arrivals : List (Arrival β)} {s : Session β} {first due : ℤ}
  {a : Arrival β}

section

variable (h : Accounts maxDepth arrivals s first due)
include h

theorem refuse {refusal : Refusal} (hpush : s.buffer.push a.packet = (.error refusal, s.buffer))
    (hseen : a.number < due ∨ a.number ∈ numbers s.buffer.held) :
    Accounts maxDepth (arrivals ++ [a]) (s.arrive a) first due ∧ (∀ k, ¬ s.GivesUp a k) ∧
      ∀ due ∈ s.due, (s.behind a due).length ≤ maxDepth := by
  have harrive := h.arrive_of_error hpush
  refine ⟨?_, fun k hk => ?_, fun due hdue => ?_⟩
  · rw [harrive]
    refine ⟨⟨h.toTracks, h.due_eq, h.first_eq, h.hole, h.short⟩, ?_, fun c hc => ?_⟩
    · have hperm := h.accounted.append_right [a]
      simpa using hperm
    · rcases mem_append.mp hc with hc | hc
      · exact h.seen c hc
      · rw [mem_singleton.mp hc]
        exact hseen
  · obtain ⟨⟨low, hlow, hle⟩, ⟨high, hhigh, hlt⟩, -⟩ := hk
    rw [harrive] at hhigh
    have hsame : low = high := Option.some.inj ((Option.mem_def.mp hlow).symm.trans hhigh)
    omega
  · rw [behind, hpush]
    exact (length_filter_le _ _).trans h.short

/-- What is held once a packet has been taken is behind the hole, but for what
is due. -/
theorem behind_le {b : ReorderBuffer (Arrival β)} (hpush : s.buffer.push a.packet = (.ok (), b))
    (hheld : b.held = s.buffer.held ++ [a])
    (hnot : b.held.length ≤ maxDepth ∨ due ∈ numbers b.held) :
    (s.behind a due).length ≤ maxDepth := by
  rw [behind, hpush]
  show (b.held.filter _).length ≤ maxDepth
  rcases hnot with hshort | hmem
  · exact (length_filter_le _ _).trans hshort
  · have hdue : a.number = due := by
      rw [hheld, numbers, map_append, mem_append] at hmem
      simpa [eq_comm] using hmem.resolve_left h.hole
    rw [hheld, filter_append, length_append]
    have hnone : ([a].filter fun c => decide (due < c.number)) = [] := by simp [hdue]
    rw [hnone, length_nil, Nat.add_zero]
    exact (length_filter_le _ _).trans h.short

/-- What was held and what came are popped now, or held. -/
theorem account {out held : List (Arrival β)} (hperm : (s.buffer.held ++ [a]).Perm (out ++ held)) :
    (arrivals ++ [a]).Perm (s.popped ++ out ++ held ++ s.refused.map Prod.snd) := by
  have hmoved : (s.buffer.held ++ s.refused.map Prod.snd ++ [a]).Perm
      (s.buffer.held ++ [a] ++ s.refused.map Prod.snd) := by
    rw [append_assoc, append_assoc]
    exact List.perm_append_comm.append_left _
  calc List.Perm (arrivals ++ [a])
        (s.popped ++ s.buffer.held ++ s.refused.map Prod.snd ++ [a]) :=
        h.accounted.append_right [a]
    List.Perm _ (s.popped ++ (s.buffer.held ++ s.refused.map Prod.snd ++ [a])) := by simp
    List.Perm _ (s.popped ++ (s.buffer.held ++ [a] ++ s.refused.map Prod.snd)) :=
      hmoved.append_left _
    List.Perm _ (s.popped ++ (out ++ held ++ s.refused.map Prod.snd)) :=
      (hperm.append_right _).append_left _
    List.Perm _ (s.popped ++ out ++ held ++ s.refused.map Prod.snd) := by simp

/-- A packet that is taken is accounted for, and makes the buffer give up what is
due only where too much waits behind it. -/
theorem accept
    {b : ReorderBuffer (Arrival β)} {mid : ℤ} (hpush : s.buffer.push a.packet = (.ok (), b))
    (hheld : b.held = s.buffer.held ++ [a]) (htracks : Tracks maxDepth s.popped b first mid)
    (hmid : (mid = due ∧ (b.held.length ≤ maxDepth ∨ due ∈ numbers b.held)) ∨
      (due < mid ∧ maxDepth < b.held.length ∧ due ∉ numbers b.held ∧ mid ∈ numbers b.held)) :
    (∃ due', Accounts maxDepth (arrivals ++ [a]) (s.arrive a) first due') ∧
      ((∃ k, s.GivesUp a k) ↔ maxDepth < (s.behind a due).length) ∧
      ∀ k, s.GivesUp a k → k ∉ numbers (arrivals ++ [a]) := by
  have hlast : mid ∈ numbers b.held ∨ s.due = some mid := by
    rcases hmid with ⟨rfl, -⟩ | ⟨-, -, -, hmem⟩
    · exact Or.inr h.due_eq
    · exact Or.inl hmem
  have hone : b.held.length ≤ maxDepth + 1 := by
    rw [hheld, length_append]
    exact Nat.succ_le_succ h.short
  have hlong : b.held.length ≤ maxDepth ∨ b.held.length ≤ maxDepth + 1 ∧ mid ∈ numbers b.held := by
    rcases hmid with ⟨rfl, hshort | hmem⟩ | ⟨-, -, -, hmem⟩
    · exact Or.inl hshort
    · exact Or.inr ⟨hone, hmem⟩
    · exact Or.inr ⟨hone, hmem⟩
  obtain ⟨out, due', hpopped, hrefused, hperm, hlength, hevery, hsettled⟩ :=
    arrive_of_ok hpush htracks h.first_eq (fun hnil => absurd hnil h.popped_ne_nil) hlast hlong
  have hle : due ≤ mid := by
    rcases hmid with ⟨rfl, -⟩ | ⟨hlt, -⟩
    · exact le_refl _
    · exact hlt.le
  have hout (c : Arrival β) (hc : c ∈ out) : mid ≤ c.number ∧ c.number < due' := by
    refine ⟨(htracks.near c (hperm.mem_iff.mpr (mem_append_left _ hc))).1, ?_⟩
    refine (hsettled.passed c ?_).2
    rw [hpopped]
    exact mem_append_right _ hc
  have hgives (k : ℤ) : s.GivesUp a k ↔ due ≤ k ∧ k < mid := by
    rw [GivesUp, hpopped, h.due_eq, hsettled.due_eq]
    simp only [Option.mem_some_iff, exists_eq_left', numbers, map_append, mem_append,
      not_or]
    constructor
    · rintro ⟨hlow, hhigh, -, hnotout⟩
      refine ⟨hlow, ?_⟩
      by_contra hge
      exact hnotout (hevery k (by omega) hhigh)
    · rintro ⟨hlow, hhigh⟩
      refine ⟨hlow, by omega, fun hmem => ?_, fun hmem => ?_⟩
      · obtain ⟨c, hc, rfl⟩ := mem_map.mp hmem
        have := h.passed c hc
        omega
      · obtain ⟨c, hc, rfl⟩ := mem_map.mp hmem
        have := hout c hc
        omega
  have hrest (c : Arrival β) (hc : c ∈ s.buffer.held ++ [a]) :
      c.number < due' ∨ c.number ∈ numbers (s.arrive a).buffer.held := by
    rw [← hheld, hperm.mem_iff, mem_append] at hc
    rcases hc with hc | hc
    · exact Or.inl (hout c hc).2
    · exact Or.inr (mem_map_of_mem hc)
  refine ⟨⟨due', hsettled, ?_, fun c hc => ?_⟩, ?_, fun k hk hmem => ?_⟩
  · rw [hpopped, hrefused]
    exact h.account (hheld ▸ hperm)
  · rcases mem_append.mp hc with hc | hc
    · rcases h.seen c hc with hlt | hmem
      · exact Or.inl (by omega)
      · obtain ⟨d, hd, hsame⟩ := mem_map.mp hmem
        rw [← hsame]
        exact hrest d (mem_append_left _ hd)
    · exact hrest c (mem_append_right _ hc)
  · simp only [hgives]
    rcases hmid with ⟨rfl, hnot⟩ | ⟨hlt, hmore, -, -⟩
    · have hshort := h.behind_le hpush hheld hnot
      constructor
      · rintro ⟨k, hlow, hhigh⟩
        omega
      · intro hmore
        omega
    · refine ⟨fun _ => ?_, fun _ => ⟨due, le_refl _, hlt⟩⟩
      rw [behind, hpush]
      have hall : (b.held.filter fun c => decide (due < c.number)) = b.held := by
        rw [filter_eq_self]
        intro c hc
        have hnear := htracks.near c hc
        exact decide_eq_true (by omega)
      rwa [hall]
  · obtain ⟨hlow, hhigh⟩ := (hgives k).mp hk
    obtain ⟨c, hc, rfl⟩ := mem_map.mp hmem
    have hbehind (d : Arrival β) (hd : d ∈ s.buffer.held ++ [a]) : mid ≤ d.number :=
      (htracks.near d (hheld ▸ hd)).1
    rcases mem_append.mp hc with hc | hc
    · rcases h.seen c hc with hlt | hmem
      · omega
      · obtain ⟨d, hd, hsame⟩ := mem_map.mp hmem
        have := hbehind d (mem_append_left _ hd)
        omega
    · have := hbehind c (mem_append_right _ hc)
      omega

theorem arrive (hnear : s.Near a) :
    (∃ due', Accounts maxDepth (arrivals ++ [a]) (s.arrive a) first due') ∧
      Fair maxDepth arrivals s a := by
  have hlate : (∃ due ∈ s.due, a.number < due) ↔ a.number < due := by simp [h.due_eq]
  have hbehind : (∃ due ∈ s.due, maxDepth < (s.behind a due).length) ↔
      maxDepth < (s.behind a due).length := by simp [h.due_eq]
  have hheldnear (hmem : a.number ∈ numbers s.buffer.held) : due ≤ a.number := by
    obtain ⟨c, hc, hsame⟩ := mem_map.mp hmem
    rw [← hsame]
    exact (h.near c hc).1
  rcases h.push_cases h.popped_ne_nil (hnear due h.due_eq) with
    ⟨hlt, hpush⟩ | ⟨hmem, hpush⟩ | ⟨hle, hnew, b, mid, hpush, hheld, htracks, hmid⟩
  · obtain ⟨haccounts, hnone, hshort⟩ := h.refuse hpush (Or.inl hlt)
    have hshort' := hshort due h.due_eq
    have hnot : a.number ∉ numbers s.buffer.held := fun hmem => by
      have := hheldnear hmem
      omega
    refine ⟨⟨due, haccounts⟩, ?_, ?_, ?_, fun k hk => absurd hk (hnone k)⟩
    · rw [hpush, hlate]
      exact iff_of_true rfl hlt
    · rw [hpush]
      exact iff_of_false (fun heq => by cases heq) hnot
    · rw [hbehind]
      exact iff_of_false (not_exists.mpr hnone) (by omega)
  · obtain ⟨haccounts, hnone, hshort⟩ := h.refuse hpush (Or.inr hmem)
    have hshort' := hshort due h.due_eq
    have hge := hheldnear hmem
    refine ⟨⟨due, haccounts⟩, ?_, ?_, ?_, fun k hk => absurd hk (hnone k)⟩
    · rw [hpush, hlate]
      exact iff_of_false (fun heq => by cases heq) (by omega)
    · rw [hpush]
      exact iff_of_true rfl hmem
    · rw [hbehind]
      exact iff_of_false (not_exists.mpr hnone) (by omega)
  · obtain ⟨haccounts, hgives, harrived⟩ := h.accept hpush hheld htracks hmid
    refine ⟨haccounts, ?_, ?_, ?_, harrived⟩
    · rw [hpush, hlate]
      exact iff_of_false (fun heq => by cases heq) (by omega)
    · rw [hpush]
      exact iff_of_false (fun heq => by cases heq) hnew
    · rw [hbehind]
      exact hgives

theorem kept : Kept maxDepth arrivals s where
  sorted := h.sorted
  accounted := h.accounted
  short := h.short
  next := by
    rw [h.next, h.due_eq]
    rfl
  counted := by
    intro first' hfirst due' hdue
    rw [h.due_eq] at hdue
    obtain rfl : due = due' := by simpa using hdue
    obtain rfl : first = first' := by
      rw [numbers, head?_map] at hfirst
      obtain ⟨a, ha, hnumber⟩ := Option.map_eq_some_iff.mp hfirst
      rw [← hnumber, h.first_eq a ha]
    have hnodup : (numbers s.popped).Nodup := h.sorted.imp fun hlt => hlt.ne
    have hsub : (numbers s.popped).toFinset ⊆ Finset.Ico first due := by
      intro k hk
      obtain ⟨a, ha, rfl⟩ := mem_map.mp (mem_toFinset.mp hk)
      exact Finset.mem_Ico.mpr (h.passed a ha)
    have hsplit : (Finset.Ico first due).filter (· ∉ numbers s.popped) =
        Finset.Ico first due \ (numbers s.popped).toFinset := by
      ext k
      simp
    have hcounted := h.counted
    rw [hsplit, Finset.card_sdiff_of_subset hsub, Int.card_Ico, toFinset_card_of_nodup hnodup,
      numbers, length_map]
    omega

end

end Accounts

theorem arrive_new {maxDepth : ℕ} (hdepth : 1 ≤ maxDepth) (a : Arrival β) :
    (∃ first due, Accounts maxDepth [a] ((new maxDepth).arrive a) first due) ∧
      Fair maxDepth [] (new maxDepth) a := by
  let b : ReorderBuffer (Arrival β) :=
    ⟨maxDepth, some (UInt16.ofInt a.number), false, [a.packet], 0⟩
  have hmax : max maxDepth 1 = maxDepth := max_eq_left hdepth
  have hkey : b.containsKey (UInt16.ofInt a.number) = true := by
    simp [b, ReorderBuffer.containsKey, Arrival.packet]
  have hpush : (new maxDepth).buffer.push a.packet = (.ok (), b) := by
    have hnot : ¬ maxDepth < 1 := by omega
    simp [new, ReorderBuffer.new, hmax, ReorderBuffer.push, ReorderBuffer.rebase,
      ReorderBuffer.containsKey, ReorderBuffer.enforceDepth_eq, ReorderBuffer.giveUp, hnot, b,
      Arrival.packet]
  have htracks : Tracks maxDepth [] b a.number a.number := by
    refine ⟨rfl, rfl, rfl, fun p hp => ?_, fun c hc => ?_, nodup_singleton _, by simp,
      List.Pairwise.nil, by simp [b]⟩
    · rw [mem_singleton.mp hp]
      rfl
    · obtain rfl : c = a := by simpa [b, ReorderBuffer.held, Arrival.packet] using hc
      omega
  have hheld : b.held = [a] := rfl
  have hmem : a.number ∈ numbers b.held := by simp [hheld, numbers]
  obtain ⟨out, due', hpopped, hrefused, hperm, hlength, hevery, hsettled⟩ :=
    arrive_of_ok hpush htracks (fun c hc => by cases hc) (fun _ => rfl) (Or.inl hmem)
      (Or.inl hdepth)
  have hnever {P : ℤ → Prop} : ¬ ∃ due ∈ (new maxDepth : Session β).due, P due := by
    rintro ⟨due, hdue, -⟩
    cases hdue
  refine ⟨⟨a.number, due', hsettled, ?_, fun c hc => ?_⟩, ?_, ?_, ?_, fun k hk => ?_⟩
  · rw [hpopped, hrefused]
    simpa [new, hheld] using hperm
  · rw [mem_singleton.mp hc]
    rw [hheld] at hperm
    rcases mem_append.mp (hperm.mem_iff.mp (mem_singleton_self a)) with hout | hrest
    · refine Or.inl (hsettled.passed a ?_).2
      rw [hpopped]
      exact mem_append_right _ hout
    · exact Or.inr (mem_map_of_mem hrest)
  · rw [hpush]
    exact iff_of_false (fun heq => by cases heq) hnever
  · rw [hpush]
    exact iff_of_false (fun heq => by cases heq) (not_mem_nil)
  · refine iff_of_false ?_ hnever
    rintro ⟨k, ⟨due, hdue, -⟩, -⟩
    cases hdue
  · obtain ⟨⟨due, hdue, -⟩, -⟩ := hk
    cases hdue

theorem run_accounts {maxDepth : ℕ} (hdepth : 1 ≤ maxDepth) {arrivals : List (Arrival β)}
    (hnear : Along arrive Near arrivals (new maxDepth)) :
    arrivals = [] ∨ ∃ first due, Accounts maxDepth arrivals (run maxDepth arrivals) first due := by
  induction arrivals using List.reverseRecOn with
  | nil => exact Or.inl rfl
  | append_singleton arrivals a ih =>
    refine Or.inr ?_
    rw [along_append] at hnear
    rw [run, foldl_concat]
    rcases ih hnear.1 with rfl | ⟨first, due, haccounts⟩
    · exact (arrive_new hdepth a).1
    · obtain ⟨due', hnext⟩ := (haccounts.arrive hnear.2.1).1
      exact ⟨first, due', hnext⟩

end Session

open Session in
/-- Drained after every push, the buffer loses nothing that came in time and
counts what it gave up on, across every wrap of the sequence numbers. -/
theorem reorder_buffer_keeps {maxDepth : ℕ} (hdepth : 1 ≤ maxDepth) {arrivals : List (Arrival β)}
    (hnear : Along Session.arrive Session.Near arrivals (.new maxDepth)) :
    Kept maxDepth arrivals (run maxDepth arrivals) ∧
      ∀ earlier a later, arrivals = earlier ++ a :: later →
        Fair maxDepth earlier (run maxDepth earlier) a := by
  constructor
  · rcases run_accounts hdepth hnear with rfl | ⟨first, due, haccounts⟩
    · exact ⟨List.Pairwise.nil, List.Perm.refl _, Nat.zero_le _, rfl, fun first hfirst => by
        cases hfirst⟩
    · exact haccounts.kept
  · rintro earlier a later rfl
    rw [along_append] at hnear
    rcases run_accounts hdepth hnear.1 with rfl | ⟨first, due, haccounts⟩
    · exact (arrive_new hdepth a).2
    · exact (haccounts.arrive hnear.2.1).2

/-- A run across the wrap that gives up on 65535, which then comes too late, and
ends with a copy. -/
theorem reorder_buffer_keeps_wrap :
    let arrivals := [65534, 65536, 65537, 65535, 65540, 65540].map fun n => (⟨n, ()⟩ : Arrival Unit)
    Session.Kept 1 arrivals (Session.run 1 arrivals) :=
  (reorder_buffer_keeps (le_refl 1) (by decide)).1

end Castaway.Rtp
