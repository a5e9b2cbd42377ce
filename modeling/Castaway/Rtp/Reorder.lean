import Mathlib.Algebra.Order.Ring.Int
import Mathlib.Data.List.MinMax
import Mathlib.Data.List.Nodup
import Mathlib.Data.List.Perm.Basic

/-!
# The reorder buffer

RTP packets come out of order, twice, or not at all.  The buffer hands them on
in sequence, and waits at a hole for no more than `max_depth` packets behind it
before it gives the hole up (`enforceDepth`).

## Strategy

On the wire a packet has the low sixteen bits of its number only.  While every
packet comes within 2¹⁵ of the one that is due, these are as good as the number
itself: `Tracks` says what the buffer is in terms of the true numbers.
Everything `push` can do to it is in `Tracks.push_cases`, and how far popping
goes in `Tracks.popUntil`.
-/

namespace Castaway.Rtp

open List

/-! ## The buffer -/

/-- A packet: its sequence number, and everything else it has. -/
structure RtpPacket (α : Type*) where
  sequence : UInt16
  content : α
  deriving DecidableEq

/-- Why `push` refused a packet. -/
inductive Refusal where
  /-- Older than the next packet due for delivery. -/
  | late
  /-- A copy of a packet still waiting in the buffer. -/
  | duplicate
  deriving DecidableEq

/-- Serial-number "less than" for 16-bit sequence numbers. -/
def serialLt (a b : UInt16) : Bool := a != b && decide (b - a < 0x8000)

/-- `buf` is the map from a sequence number to the packet that has it, and
`skipped` a 64-bit count that no stream fills. -/
structure ReorderBuffer (α : Type*) where
  maxDepth : ℕ
  next : Option UInt16
  started : Bool
  buf : List (RtpPacket α)
  skipped : ℕ
  deriving DecidableEq

namespace ReorderBuffer

variable {α : Type*}

def new (maxDepth : ℕ) : ReorderBuffer α := ⟨max maxDepth 1, none, false, [], 0⟩

def containsKey (b : ReorderBuffer α) (seq : UInt16) : Bool := b.buf.any (·.sequence == seq)

/-- What `push` does with `next` before it looks for a copy. -/
def rebase (b : ReorderBuffer α) (seq : UInt16) : Except Refusal (ReorderBuffer α) :=
  match b.next with
  | none => .ok { b with next := some seq }
  | some next =>
    if serialLt seq next then
      if b.started then .error .late else .ok { b with next := some seq }
    else .ok b

/-- The buffered packet with the smallest forward distance from `next`. -/
def earliest (b : ReorderBuffer α) (next : UInt16) : Option (RtpPacket α) :=
  b.buf.argmin fun p => (p.sequence - next).toNat

/-- One turn of the loop of `enforce_depth`, or `none` where the loop ends. -/
def giveUp (b : ReorderBuffer α) : Option (ReorderBuffer α) :=
  if b.maxDepth < b.buf.length then
    match b.next with
    | none => none
    | some next =>
      -- the packet that is due has come: a burst, not a hole
      if b.containsKey next then none
      else match b.earliest next with
        | none => none
        | some p => some { b with
            skipped := b.skipped + (p.sequence - next).toNat
            next := some p.sequence
            buf := b.buf.filter fun q => !serialLt q.sequence p.sequence }
  else none

/-- The loop of `enforce_depth`, for as many turns as are allowed. -/
def turns : ℕ → ReorderBuffer α → ReorderBuffer α
  | 0, b => b
  | fuel + 1, b => match b.giveUp with
    | none => b
    | some b' => turns fuel b'

def enforceDepth (b : ReorderBuffer α) : ReorderBuffer α := b.turns b.buf.length

def push (b : ReorderBuffer α) (packet : RtpPacket α) : Except Refusal Unit × ReorderBuffer α :=
  match b.rebase packet.sequence with
  | .error refusal => (.error refusal, b)
  | .ok b =>
    if b.containsKey packet.sequence then (.error .duplicate, b)
    else (.ok (), { b with buf := b.buf ++ [packet] }.enforceDepth)

def pop (b : ReorderBuffer α) : Option (RtpPacket α × ReorderBuffer α) :=
  match b.next with
  | none => none
  | some next =>
    match b.buf.find? (·.sequence == next) with
    | none => none
    | some packet => some (packet, { b with
        buf := b.buf.eraseP (·.sequence == next)
        next := some (next + 1)
        started := true })

/-- Popping until there is nothing to pop, at most `fuel` times. -/
def popUntil : ℕ → ReorderBuffer α → List (RtpPacket α) × ReorderBuffer α
  | 0, b => ([], b)
  | fuel + 1, b => match b.pop with
    | none => ([], b)
    | some (packet, b') => (packet :: (popUntil fuel b').1, (popUntil fuel b').2)

/-- `while let Some(packet) = self.reorder.pop()` -/
def drain (b : ReorderBuffer α) : List (RtpPacket α) × ReorderBuffer α := b.popUntil b.buf.length

/-- Where the loop has come to an end, more turns change nothing. -/
theorem turns_of_giveUp_eq_none {b : ReorderBuffer α} (h : b.giveUp = none) (fuel : ℕ) :
    turns fuel b = b := by
  cases fuel with
  | zero => rfl
  | succ fuel => rw [turns, h]

theorem mem_of_earliest {b : ReorderBuffer α} {next : UInt16} {p : RtpPacket α}
    (h : b.earliest next = some p) : p ∈ b.buf :=
  argmin_mem h

@[simp] theorem serialLt_self (a : UInt16) : serialLt a a = false := by simp [serialLt]

/-- The loop takes one turn at most: it leaves the packet that is due in the
buffer. -/
theorem giveUp_giveUp {b b' : ReorderBuffer α} (h : b.giveUp = some b') : b'.giveUp = none := by
  unfold giveUp at h
  split at h
  · rename_i hlong
    split at h
    · cases h
    · rename_i next hnext
      split at h
      · cases h
      · split at h
        · cases h
        · rename_i p hp
          cases h
          have hkept : ∃ q ∈ b.buf, serialLt q.sequence p.sequence = false ∧
              q.sequence = p.sequence :=
            ⟨p, mem_of_earliest hp, serialLt_self _, rfl⟩
          simp [giveUp, containsKey, hkept]
  · cases h

theorem enforceDepth_eq (b : ReorderBuffer α) : b.enforceDepth = b.giveUp.getD b := by
  cases hgive : b.giveUp with
  | none => exact turns_of_giveUp_eq_none hgive _
  | some b' =>
    have hpos : 0 < b.buf.length := by
      by_contra hzero
      have hshort : ¬ b.maxDepth < b.buf.length := by omega
      rw [giveUp, if_neg hshort] at hgive
      cases hgive
    obtain ⟨n, hn⟩ := Nat.exists_eq_succ_of_ne_zero hpos.ne'
    rw [enforceDepth, hn, turns, hgive]
    exact turns_of_giveUp_eq_none (giveUp_giveUp hgive) n

end ReorderBuffer

/-! ## Numbers in sixteen bits -/

theorem toNat_ofInt_sub (m n : ℤ) :
    (UInt16.ofInt m - UInt16.ofInt n).toNat = ((m - n) % 65536).toNat := by
  have hsub : UInt16.ofInt m - UInt16.ofInt n = UInt16.ofInt (m - n) := by
    rw [Int.sub_eq_add_neg, UInt16.ofInt_add, UInt16.ofInt_neg, UInt16.sub_eq_add_neg]
  rw [hsub, UInt16.ofInt, UInt16.toNat_ofNat']
  omega

theorem toNat_ofInt_sub_of_le {m n : ℤ} (hle : n ≤ m) (hnear : m < n + 65536) :
    ((UInt16.ofInt m - UInt16.ofInt n).toNat : ℤ) = m - n := by
  rw [toNat_ofInt_sub]
  omega

theorem ofInt_eq_iff {m n : ℤ} (hnear : |m - n| < 65536) :
    UInt16.ofInt m = UInt16.ofInt n ↔ m = n := by
  refine ⟨fun h => ?_, fun h => by rw [h]⟩
  have hzero := toNat_ofInt_sub m n
  rw [h, UInt16.sub_self] at hzero
  rw [abs_lt] at hnear
  simp only [UInt16.toNat_zero] at hzero
  omega

theorem serialLt_ofInt {m n : ℤ} (hnear : |m - n| < 32768) :
    serialLt (UInt16.ofInt m) (UInt16.ofInt n) = decide (m < n) := by
  have hne : UInt16.ofInt m = UInt16.ofInt n ↔ m = n :=
    ofInt_eq_iff (hnear.trans (by decide))
  have hdistance := toNat_ofInt_sub n m
  have hlt : UInt16.ofInt n - UInt16.ofInt m < 0x8000 ↔ ((n - m) % 65536).toNat < 32768 := by
    rw [UInt16.lt_iff_toNat_lt, hdistance]
    rfl
  rw [abs_lt] at hnear
  rw [serialLt, Bool.eq_iff_iff]
  simp only [Bool.and_eq_true, bne_iff_ne, ne_eq, hne, decide_eq_true_eq, hlt]
  omega

theorem perm_cons_eraseP {γ : Type*} {q : γ → Bool} {l : List γ} {a : γ}
    (h : l.find? q = some a) : l.Perm (a :: l.eraseP q) := by
  induction l with
  | nil => cases h
  | cons c l ih =>
    cases hc : q c with
    | true =>
      rw [find?_cons_of_pos hc] at h
      cases h
      rw [eraseP_cons_of_pos hc]
    | false =>
      rw [find?_cons_of_neg (by simp [hc])] at h
      rw [eraseP_cons_of_neg (by simp [hc])]
      exact ((ih h).cons c).trans (List.Perm.swap _ _ _)

/-! ## What the buffer holds, in true numbers -/

/-- A packet that arrives, with the number its sender gave it. -/
structure Arrival (β : Type*) where
  number : ℤ
  body : β
  deriving DecidableEq

variable {β : Type*}

def Arrival.packet (a : Arrival β) : RtpPacket (Arrival β) := ⟨UInt16.ofInt a.number, a⟩

def ReorderBuffer.held (b : ReorderBuffer (Arrival β)) : List (Arrival β) := b.buf.map (·.content)

def numbers (arrivals : List (Arrival β)) : List ℤ := arrivals.map (·.number)

/-- The buffer waits for number `due`, has handed `popped` on, and holds nothing
that is behind.  Every number from `first` on has been handed on or counted as
skipped. -/
structure Tracks (maxDepth : ℕ) (popped : List (Arrival β)) (b : ReorderBuffer (Arrival β))
    (first due : ℤ) : Prop where
  depth : b.maxDepth = maxDepth
  next : b.next = some (UInt16.ofInt due)
  started : b.started = !popped.isEmpty
  keyed : ∀ p ∈ b.buf, p = p.content.packet
  near : ∀ a ∈ b.held, due ≤ a.number ∧ a.number < due + 32768
  distinct : (numbers b.held).Nodup
  passed : ∀ a ∈ popped, first ≤ a.number ∧ a.number < due
  sorted : (numbers popped).Pairwise (· < ·)
  counted : (b.skipped + popped.length : ℤ) = due - first

namespace Tracks

variable {maxDepth : ℕ} {popped : List (Arrival β)} {b : ReorderBuffer (Arrival β)}
  {first due : ℤ}

theorem length_held (b : ReorderBuffer (Arrival β)) : b.held.length = b.buf.length :=
  length_map _

section

variable (h : Tracks maxDepth popped b first due)
include h

/-- The sequence number of a held packet stands for its true number. -/
theorem sequence_eq_iff {p : RtpPacket (Arrival β)}
    (hp : p ∈ b.buf) {m : ℤ} (hlow : due ≤ m) (hhigh : m < due + 32768) :
    p.sequence = UInt16.ofInt m ↔ p.content.number = m := by
  obtain ⟨hge, hlt⟩ := h.near p.content (mem_map_of_mem hp)
  have hnear : |p.content.number - m| < 65536 := by
    rw [abs_lt]
    omega
  rw [h.keyed p hp]
  exact ofInt_eq_iff hnear

theorem containsKey_iff {m : ℤ} (hlow : due ≤ m)
    (hhigh : m < due + 32768) : b.containsKey (UInt16.ofInt m) = true ↔ m ∈ numbers b.held := by
  simp only [ReorderBuffer.containsKey, any_eq_true, beq_iff_eq, numbers, ReorderBuffer.held,
    map_map, mem_map, Function.comp]
  constructor
  · rintro ⟨p, hp, hseq⟩
    exact ⟨p, hp, (h.sequence_eq_iff hp hlow hhigh).mp hseq⟩
  · rintro ⟨p, hp, hnumber⟩
    exact ⟨p, hp, (h.sequence_eq_iff hp hlow hhigh).mpr hnumber⟩

theorem pop_of_mem (hdue : due ∈ numbers b.held) :
    ∃ a b', b.pop = some (a.packet, b') ∧ a.number = due ∧ b.held.Perm (a :: b'.held) ∧
      Tracks maxDepth (popped ++ [a]) b' first (due + 1) := by
  have hkey := (h.containsKey_iff (le_refl due) (by omega)).mpr hdue
  obtain ⟨p, hfind⟩ : ∃ p, b.buf.find? (·.sequence == UInt16.ofInt due) = some p := by
    rw [← Option.isSome_iff_exists, find?_isSome]
    simpa [ReorderBuffer.containsKey] using hkey
  have hp : p ∈ b.buf := mem_of_find?_eq_some hfind
  have hseq : p.sequence = UInt16.ofInt due := by simpa using find?_some hfind
  have hnumber : p.content.number = due :=
    (h.sequence_eq_iff hp (le_refl due) (by omega)).mp hseq
  have hperm : b.buf.Perm (p :: b.buf.eraseP (·.sequence == UInt16.ofInt due)) :=
    perm_cons_eraseP hfind
  have hheld : b.held.Perm (p.content ::
      (b.buf.eraseP (·.sequence == UInt16.ofInt due)).map (·.content)) := hperm.map _
  have hdistinct : (p.content.number ::
      numbers ((b.buf.eraseP (·.sequence == UInt16.ofInt due)).map (·.content))).Nodup :=
    (hheld.map _).nodup_iff.mp h.distinct
  rw [hnumber, nodup_cons] at hdistinct
  refine ⟨p.content, { b with
    buf := b.buf.eraseP (·.sequence == UInt16.ofInt due)
    next := some (UInt16.ofInt due + 1)
    started := true }, ?_, hnumber, hheld, ?_⟩
  · simp only [ReorderBuffer.pop, h.next, hfind]
    rw [← h.keyed p hp]
  · refine ⟨h.depth, ?_, by simp, fun q hq => ?_, fun a ha => ?_, ?_, fun a ha => ?_, ?_, ?_⟩
    · rw [UInt16.ofInt_add, UInt16.ofInt_one]
    · exact h.keyed q (hperm.mem_iff.mpr (mem_cons_of_mem _ hq))
    · obtain ⟨hge, hlt⟩ := h.near a (hheld.mem_iff.mpr (mem_cons_of_mem _ ha))
      have hmem : a.number ∈ numbers
          ((b.buf.eraseP (·.sequence == UInt16.ofInt due)).map (·.content)) :=
        mem_map_of_mem ha
      have hne : a.number ≠ due := by
        intro heq
        rw [heq] at hmem
        exact hdistinct.1 hmem
      omega
    · exact hdistinct.2
    · have hfirst := h.counted
      rcases mem_append.mp ha with ha | ha
      · obtain ⟨hge, hlt⟩ := h.passed a ha
        omega
      · rw [mem_singleton.mp ha, hnumber]
        omega
    · rw [numbers, map_append, pairwise_append]
      refine ⟨h.sorted, pairwise_singleton _ _, fun m hm n hn => ?_⟩
      obtain ⟨a, ha, rfl⟩ := mem_map.mp hm
      rw [mem_singleton.mp hn]
      show a.number < p.content.number
      rw [hnumber]
      exact (h.passed a ha).2
    · have hcounted := h.counted
      simp only [length_append, length_singleton]
      omega

/-- Where the packet that is due has not come, nothing is popped. -/
theorem pop_of_notMem (hdue : due ∉ numbers b.held) :
    b.pop = none := by
  have hkey : ¬ b.containsKey (UInt16.ofInt due) = true := by
    rwa [h.containsKey_iff (le_refl due) (by omega)]
  have hfind : b.buf.find? (·.sequence == UInt16.ofInt due) = none := by
    rw [find?_eq_none]
    intro p hp hseq
    exact hkey (any_eq_true.mpr ⟨p, hp, hseq⟩)
  simp only [ReorderBuffer.pop, h.next, hfind]

/-- Popping goes on to the next number that has not come. -/
theorem popUntil (fuel : ℕ) (hfuel : b.buf.length ≤ fuel) :
    ∃ out b' due', b.popUntil fuel = (out.map Arrival.packet, b') ∧
      Tracks maxDepth (popped ++ out) b' first due' ∧ due' ∉ numbers b'.held ∧
      b.held.Perm (out ++ b'.held) ∧ due' = due + out.length ∧
      (due ∈ numbers b.held → out ≠ []) ∧
      (∀ a ∈ out.getLast?, a.number + 1 = due') ∧ (∀ a ∈ out.head?, a.number = due) ∧
      ∀ k, due ≤ k → k < due' → k ∈ numbers out := by
  induction fuel generalizing popped b due with
  | zero =>
    have hnil : b.buf = [] := length_eq_zero_iff.mp (Nat.le_zero.mp hfuel)
    have hnone : numbers b.held = [] := by rw [numbers, ReorderBuffer.held, hnil]; rfl
    exact ⟨[], b, due, rfl, by simpa using h, by simp [hnone], List.Perm.refl _, by simp,
      by simp [hnone], by simp, by simp, fun k hlow hhigh => absurd hlow (by omega)⟩
  | succ fuel ih =>
    by_cases hdue : due ∈ numbers b.held
    · obtain ⟨a, b', hpop, hnumber, hperm, hnext⟩ := h.pop_of_mem hdue
      have hlength : b.held.length = b'.held.length + 1 := hperm.length_eq
      rw [length_held, length_held] at hlength
      obtain ⟨out, b'', due', hout, htracks, hend, hrest, hlast, -, hnewest, -, hevery⟩ :=
        ih hnext (by omega)
      refine ⟨a :: out, b'', due', ?_, by simpa using htracks, hend,
        hperm.trans (hrest.cons a), ?_, by simp, ?_, by simp [hnumber], fun k hlow hhigh => ?_⟩
      · rw [ReorderBuffer.popUntil, hpop]
        simp only [hout, map_cons]
      · simp only [length_cons]
        omega
      · intro c hc
        rw [getLast?_cons] at hc
        cases hgot : out.getLast? with
        | none =>
          rw [getLast?_eq_none_iff] at hgot
          rw [hgot] at hc hlast
          obtain rfl : a = c := by simpa using hc
          simp only [length_nil] at hlast
          omega
        | some d =>
          rw [hgot] at hc
          obtain rfl : d = c := by simpa using hc
          exact hnewest d hgot
      · rw [numbers, map_cons, mem_cons, hnumber]
        rcases Int.le_iff_lt_or_eq.mp hlow with hlt | heq
        · exact Or.inr (hevery k hlt hhigh)
        · exact Or.inl heq.symm
    · refine ⟨[], b, due, ?_, by simpa using h, hdue, List.Perm.refl _, by simp,
        fun hmem => absurd hmem hdue, by simp, by simp,
        fun k hlow hhigh => absurd hlow (by omega)⟩
      rw [ReorderBuffer.popUntil, h.pop_of_notMem hdue]
      rfl

/-- A hole with too many packets behind it is given up, all of it and nothing
else. -/
theorem giveUp_of_long (hlong : maxDepth < b.held.length) (hdue : due ∉ numbers b.held) :
    ∃ b' due', b.giveUp = some b' ∧ b'.held = b.held ∧ due < due' ∧ due' ∈ numbers b.held ∧
      Tracks maxDepth popped b' first due' := by
  have hkey : b.containsKey (UInt16.ofInt due) = false := by
    rw [← Bool.not_eq_true, h.containsKey_iff (le_refl due) (by omega)]
    exact hdue
  have hdistance (p : RtpPacket (Arrival β)) (hp : p ∈ b.buf) :
      ((p.sequence - UInt16.ofInt due).toNat : ℤ) = p.content.number - due := by
    obtain ⟨hge, hlt⟩ := h.near p.content (mem_map_of_mem hp)
    rw [h.keyed p hp]
    exact toNat_ofInt_sub_of_le hge (by omega)
  obtain ⟨p, hearliest⟩ : ∃ p, b.earliest (UInt16.ofInt due) = some p := by
    refine Option.ne_none_iff_exists'.mp fun hnone => ?_
    rw [ReorderBuffer.earliest, argmin_eq_none] at hnone
    rw [length_held, hnone] at hlong
    exact Nat.not_lt_zero _ hlong
  have hp : p ∈ b.buf := ReorderBuffer.mem_of_earliest hearliest
  have hleast (q : RtpPacket (Arrival β)) (hq : q ∈ b.buf) :
      p.content.number ≤ q.content.number := by
    have hle := le_of_mem_argmin (f := fun p : RtpPacket (Arrival β) =>
      (p.sequence - UInt16.ofInt due).toNat) hq hearliest
    have hpdistance := hdistance p hp
    have hqdistance := hdistance q hq
    omega
  have hmem : p.content.number ∈ numbers b.held :=
    mem_map_of_mem (mem_map_of_mem hp)
  have hge : due ≤ p.content.number := (h.near p.content (mem_map_of_mem hp)).1
  have hne : due ≠ p.content.number := fun heq => hdue (heq ▸ hmem)
  -- nothing held is behind the new number: the pruning removes nothing
  have hkept : b.buf.filter (fun q => !serialLt q.sequence p.sequence) = b.buf := by
    rw [filter_eq_self]
    intro q hq
    have hqnear := h.near q.content (mem_map_of_mem hq)
    have hpnear := h.near p.content (mem_map_of_mem hp)
    have hpq := hleast q hq
    have habs : |q.content.number - p.content.number| < 32768 := by
      rw [abs_lt]
      omega
    have hlt : serialLt (UInt16.ofInt q.content.number) (UInt16.ofInt p.content.number) =
        decide (q.content.number < p.content.number) := serialLt_ofInt habs
    rw [h.keyed q hq, h.keyed p hp]
    show (!serialLt (UInt16.ofInt q.content.number) (UInt16.ofInt p.content.number)) = true
    rw [hlt]
    simpa using hpq
  refine ⟨{ b with
    skipped := b.skipped + (p.sequence - UInt16.ofInt due).toNat
    next := some p.sequence }, p.content.number, ?_, rfl, by omega, hmem, ?_⟩
  · rw [length_held, ← h.depth] at hlong
    simp only [ReorderBuffer.giveUp, if_pos hlong, h.next, hkey, hearliest, hkept,
      Bool.false_eq_true, if_false]
  · refine ⟨h.depth, ?_, h.started, h.keyed, fun a ha => ?_, h.distinct, fun a ha => ?_, h.sorted,
      ?_⟩
    · exact congrArg (fun q => some q.sequence) (h.keyed p hp)
    · obtain ⟨q, hq, rfl⟩ := mem_map.mp ha
      have hqnear := h.near q.content (mem_map_of_mem hq)
      have hpq := hleast q hq
      omega
    · have hpassed := h.passed a ha
      omega
    · have hcounted := h.counted
      have hpdistance := hdistance p hp
      simp only [Nat.cast_add]
      omega

theorem giveUp_of_not
    (hnot : b.held.length ≤ maxDepth ∨ due ∈ numbers b.held) : b.giveUp = none := by
  rcases hnot with hshort | hdue
  · rw [length_held, ← h.depth] at hshort
    exact if_neg (by omega)
  · have hkey := (h.containsKey_iff (le_refl due) (by omega)).mpr hdue
    simp [ReorderBuffer.giveUp, h.next, hkey]

theorem insert {a : Arrival β} (hlow : due ≤ a.number)
    (hhigh : a.number < due + 32768) (hnew : a.number ∉ numbers b.held) :
    Tracks maxDepth popped { b with buf := b.buf ++ [a.packet] } first due where
  depth := h.depth
  next := h.next
  started := h.started
  keyed := by
    intro p hp
    rcases mem_append.mp hp with hp | hp
    · exact h.keyed p hp
    · rw [mem_singleton.mp hp]
      rfl
  near := by
    intro c hc
    rw [ReorderBuffer.held, map_append] at hc
    rcases mem_append.mp hc with hc | hc
    · exact h.near c hc
    · obtain rfl : c = a := by simpa [Arrival.packet] using hc
      exact ⟨hlow, hhigh⟩
  distinct := by
    have hsplit : numbers (ReorderBuffer.held { b with buf := b.buf ++ [a.packet] }) =
        numbers b.held ++ [a.number] := by
      simp [numbers, ReorderBuffer.held, Arrival.packet]
    rw [hsplit, nodup_append]
    refine ⟨h.distinct, nodup_singleton _, fun m hm n hn heq => hnew ?_⟩
    rwa [← mem_singleton.mp hn, ← heq]
  passed := h.passed
  sorted := h.sorted
  counted := h.counted

/-- Everything `push` can do once something has been popped. -/
theorem push_cases (hpopped : popped ≠ []) {a : Arrival β} (hnear : |a.number - due| < 32768) :
    (a.number < due ∧ b.push a.packet = (.error .late, b)) ∨
    (a.number ∈ numbers b.held ∧ b.push a.packet = (.error .duplicate, b)) ∨
    (due ≤ a.number ∧ a.number ∉ numbers b.held ∧ ∃ b' due', b.push a.packet = (.ok (), b') ∧
      b'.held = b.held ++ [a] ∧ Tracks maxDepth popped b' first due' ∧
      ((due' = due ∧ (b'.held.length ≤ maxDepth ∨ due ∈ numbers b'.held)) ∨
        (due < due' ∧ maxDepth < b'.held.length ∧ due ∉ numbers b'.held ∧
          due' ∈ numbers b'.held))) := by
  have hstarted : b.started = true := by
    rw [h.started]
    simpa using hpopped
  have hserial : serialLt a.packet.sequence (UInt16.ofInt due) = decide (a.number < due) :=
    serialLt_ofInt hnear
  rw [abs_lt] at hnear
  by_cases hlate : a.number < due
  · refine Or.inl ⟨hlate, ?_⟩
    simp [ReorderBuffer.push, ReorderBuffer.rebase, h.next, hserial, hlate, hstarted]
  · have hrebase : b.rebase a.packet.sequence = .ok b := by
      simp [ReorderBuffer.rebase, h.next, hserial, hlate]
    have hkey := h.containsKey_iff (m := a.number) (by omega) (by omega)
    by_cases hcopy : a.number ∈ numbers b.held
    · refine Or.inr (Or.inl ⟨hcopy, ?_⟩)
      have hhas : b.containsKey a.packet.sequence = true := hkey.mpr hcopy
      simp [ReorderBuffer.push, hrebase, hhas]
    · have hhas : b.containsKey a.packet.sequence = false := by
        rw [← Bool.not_eq_true]
        exact mt hkey.mp hcopy
      have hpush : b.push a.packet =
          (.ok (), { b with buf := b.buf ++ [a.packet] }.enforceDepth) := by
        simp [ReorderBuffer.push, hrebase, hhas]
      have hheld : ReorderBuffer.held { b with buf := b.buf ++ [a.packet] } = b.held ++ [a] := by
        simp [ReorderBuffer.held, Arrival.packet]
      have hinsert := h.insert (a := a) (by omega) (by omega) hcopy
      refine Or.inr (Or.inr ⟨by omega, hcopy, ?_⟩)
      rw [hpush, ReorderBuffer.enforceDepth_eq]
      by_cases hgive : maxDepth < (b.held ++ [a]).length ∧ due ∉ numbers (b.held ++ [a])
      · rw [← hheld] at hgive
        obtain ⟨b', due', hsome, hsame, hlt, hmem, htracks⟩ :=
          hinsert.giveUp_of_long hgive.1 hgive.2
        rw [hsome]
        rw [← hsame] at hgive hmem
        exact ⟨b', due', rfl, hsame.trans hheld, htracks, Or.inr ⟨hlt, hgive.1, hgive.2, hmem⟩⟩
      · have hnot : (b.held ++ [a]).length ≤ maxDepth ∨ due ∈ numbers (b.held ++ [a]) := by
          by_cases hlong : maxDepth < (b.held ++ [a]).length
          · exact Or.inr (not_not.mp fun hdue => hgive ⟨hlong, hdue⟩)
          · exact Or.inl (by omega)
        rw [← hheld] at hnot
        rw [hinsert.giveUp_of_not hnot]
        exact ⟨_, due, rfl, hheld, hinsert, Or.inl ⟨rfl, hnot⟩⟩

end

end Tracks

end Castaway.Rtp
