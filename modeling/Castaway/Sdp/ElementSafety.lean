import Castaway.Sdp.Element

/-!
# What decoding an element can stop at

`WellFormed depth bytes` says, of the bytes alone, that they are one whole
element at some depth, and `ReachesEmptyInt depth buf` that reading from the
left meets a signed integer of no bytes before it meets anything malformed.
These are the two things that matter: decoding takes a well-formed element, or
faults because it reached such an integer, or returns an error.

## Strategy

`Reads` says this of a decoder at one depth.  It holds at the depth that is
refused, and of the calls on top if it holds of the nested ones
(`decodeAt_reads`).  The loop over a container's body is treated apart, for any
decoder at all.
-/

namespace Castaway.Sdp

open List

/-! ## Nothing but errors -/

/-- A computation ends in a value or in one of the errors the source returns. -/
def NoFault {α : Type} (r : Result α) : Prop := ∀ f, r ≠ .error (.fault f)

theorem noFault_ok {α : Type} (a : α) : NoFault (.ok a : Result α) := by
  intro f h
  cases h

theorem noFault_error {α : Type} (e : SdpError) : NoFault (.error (.error e) : Result α) := by
  intro f h
  cases h

/-- A computation does not fault if none of its parts does. -/
theorem noFault_bind {α β : Type} {x : Result α} {g : α → Result β} (hx : NoFault x)
    (hg : ∀ a, x = .ok a → NoFault (g a)) : NoFault (x >>= g) := by
  intro f h
  cases x with
  | error stop =>
    cases h
    exact hx f rfl
  | ok a => exact hg a rfl f h

variable {buf tail bytes body : Bytes} {i first m n depth : ℕ}

theorem noFault_index (h : i < buf.length) : NoFault (index buf i) := by
  rw [index, getElem?_eq_getElem h]
  exact noFault_ok _

/-- A slice in range is not a fault. -/
theorem slice_eq {last : ℕ} (hfirst : first ≤ last) (hlast : last ≤ buf.length) :
    slice buf first last = .ok ((buf.drop first).take (last - first)) :=
  if_pos ⟨hfirst, hlast⟩

theorem sliceFrom_eq (h : first ≤ buf.length) :
    sliceFrom buf first = .ok (buf.drop first) :=
  if_pos h

theorem subtract_eq (h : n ≤ m) : subtract m n = .ok (m - n) := if_pos h

theorem shiftLeft_eq {x : UInt64} (h : n < 64) :
    shiftLeft x n = .ok (x <<< UInt64.ofNat n) :=
  if_pos h

theorem noFault_atIndex (buf : Bytes) (i : ℕ) : NoFault (atIndex buf i) := by
  unfold atIndex
  split
  · exact noFault_ok _
  · exact noFault_error _

/-! ## Reading a header -/

variable {b kind : UInt8}

theorem atIndex_ok (h : atIndex buf i = .ok b) :
    buf[i]? = some b := by
  unfold atIndex at h
  split at h
  · cases h
    assumption
  · cases h

/-- What `splitHeader` gives for `buf` it gives for a beginning of it, whatever
comes behind. -/
def SplitsAs (buf : Bytes) (kind : UInt8) (h n : ℕ) : Prop :=
  ∃ header rest, buf = header ++ rest ∧ header.length = h ∧ 0 < h ∧
    ∀ rest', splitHeader (header ++ rest') = .ok (kind, h, n)

theorem splitsAs_fixed {h : ℕ} (hfixed : ∀ tail', splitHeader (b :: tail') = .ok (b >>> 3, 1, m))
    (hok : splitHeader (b :: tail) = .ok (kind, h, n)) : SplitsAs (b :: tail) kind h n := by
  rw [hfixed tail] at hok
  cases hok
  exact ⟨[b], tail, rfl, rfl, Nat.one_pos, hfixed⟩

/-- An explicit length of one byte is in the two first bytes. -/
theorem splitsAs_five {h : ℕ} (hindex : (b &&& 0x07).toNat = 5)
    (hok : splitHeader (b :: tail) = .ok (kind, h, n)) : SplitsAs (b :: tail) kind h n := by
  simp only [splitHeader, hindex] at hok
  obtain ⟨b₁, h₁, hok⟩ := bind_eq_ok.mp hok
  cases hok
  obtain _ | ⟨c₁, rest⟩ := tail
  · cases atIndex_ok h₁
  · cases atIndex_ok h₁
    refine ⟨[b, b₁], rest, rfl, rfl, Nat.two_pos, fun rest' => ?_⟩
    simp only [splitHeader, cons_append, hindex]
    rfl

/-- An explicit length of two bytes is in the three first bytes. -/
theorem splitsAs_six {h : ℕ} (hindex : (b &&& 0x07).toNat = 6)
    (hok : splitHeader (b :: tail) = .ok (kind, h, n)) : SplitsAs (b :: tail) kind h n := by
  simp only [splitHeader, hindex] at hok
  obtain ⟨b₁, h₁, hok⟩ := bind_eq_ok.mp hok
  obtain ⟨b₂, h₂, hok⟩ := bind_eq_ok.mp hok
  cases hok
  obtain _ | ⟨c₁, _ | ⟨c₂, rest⟩⟩ := tail
  · cases atIndex_ok h₁
  · cases atIndex_ok h₂
  · cases atIndex_ok h₁
    cases atIndex_ok h₂
    refine ⟨[b, b₁, b₂], rest, rfl, rfl, Nat.succ_pos 2, fun rest' => ?_⟩
    simp only [splitHeader, cons_append, hindex]
    rfl

/-- An explicit length of four bytes is in the five first bytes. -/
theorem splitsAs_seven {h : ℕ} (hindex : (b &&& 0x07).toNat = 7)
    (hok : splitHeader (b :: tail) = .ok (kind, h, n)) : SplitsAs (b :: tail) kind h n := by
  simp only [splitHeader, hindex] at hok
  obtain ⟨b₁, h₁, hok⟩ := bind_eq_ok.mp hok
  obtain ⟨b₂, h₂, hok⟩ := bind_eq_ok.mp hok
  obtain ⟨b₃, h₃, hok⟩ := bind_eq_ok.mp hok
  obtain ⟨b₄, h₄, hok⟩ := bind_eq_ok.mp hok
  cases hok
  obtain _ | ⟨c₁, _ | ⟨c₂, _ | ⟨c₃, _ | ⟨c₄, rest⟩⟩⟩⟩ := tail
  · cases atIndex_ok h₁
  · cases atIndex_ok h₂
  · cases atIndex_ok h₃
  · cases atIndex_ok h₄
  · cases atIndex_ok h₁
    cases atIndex_ok h₂
    cases atIndex_ok h₃
    cases atIndex_ok h₄
    refine ⟨[b, b₁, b₂, b₃, b₄], rest, rfl, rfl, Nat.succ_pos 4, fun rest' => ?_⟩
    simp only [splitHeader, cons_append, hindex]
    rfl

/-- A header that was split is a beginning of the buffer, and it is split the
same way whatever comes behind it. -/
theorem splitHeader_ok {h : ℕ}
    (hok : splitHeader buf = .ok (kind, h, n)) : SplitsAs buf kind h n := by
  obtain _ | ⟨b, tail⟩ := buf
  · cases hok
  · have hindex : (b &&& 0x07).toNat ≤ 7 := by
      rw [UInt8.toNat_and]
      exact Nat.and_le_right
    generalize hsize : (b &&& 0x07).toNat = size at hindex
    have hcases : size = 0 ∨ size = 1 ∨ size = 2 ∨ size = 3 ∨ size = 4 ∨ size = 5 ∨ size = 6 ∨
        size = 7 := by omega
    obtain rfl | rfl | rfl | rfl | rfl | rfl | rfl | rfl := hcases
    · exact splitsAs_fixed (m := if b >>> 3 = typeNil then 0 else 1)
        (fun tail' => by simp only [splitHeader, hsize]) hok
    · exact splitsAs_fixed (m := 2) (fun tail' => by simp only [splitHeader, hsize]) hok
    · exact splitsAs_fixed (m := 4) (fun tail' => by simp only [splitHeader, hsize]) hok
    · exact splitsAs_fixed (m := 8) (fun tail' => by simp only [splitHeader, hsize]) hok
    · exact splitsAs_fixed (m := 16) (fun tail' => by simp only [splitHeader, hsize]) hok
    · exact splitsAs_five hsize hok
    · exact splitsAs_six hsize hok
    · exact splitsAs_seven hsize hok

theorem splitHeader_append {h : ℕ} (hok : splitHeader buf = .ok (kind, h, n)) (tail : Bytes) :
    splitHeader (buf ++ tail) = .ok (kind, h, n) := by
  obtain ⟨header, rest, rfl, -, -, hsplit⟩ := splitHeader_ok hok
  rw [append_assoc]
  exact hsplit _

theorem splitHeader_bounds {h : ℕ}
    (hok : splitHeader buf = .ok (kind, h, n)) : 0 < h ∧ h ≤ buf.length := by
  obtain ⟨header, rest, rfl, rfl, hpos, -⟩ := splitHeader_ok hok
  rw [length_append]
  exact ⟨hpos, Nat.le_add_right _ _⟩

theorem splitHeader_take {h : ℕ} (hok : splitHeader buf = .ok (kind, h, n)) (hm : h ≤ m) :
    splitHeader (buf.take m) = .ok (kind, h, n) := by
  obtain ⟨header, rest, rfl, rfl, -, hsplit⟩ := splitHeader_ok hok
  rw [take_append, take_of_length_le hm]
  exact hsplit _

/-- Reading a header never faults. -/
theorem noFault_splitHeader (buf : Bytes) : NoFault (splitHeader buf) := by
  obtain _ | ⟨b, tail⟩ := buf
  · exact noFault_error _
  · unfold splitHeader
    dsimp only
    split
    · exact noFault_ok _
    · exact noFault_ok _
    · exact noFault_ok _
    · exact noFault_ok _
    · exact noFault_ok _
    · exact noFault_bind (noFault_atIndex _ _) fun b₁ _ => noFault_ok _
    · exact noFault_bind (noFault_atIndex _ _) fun b₁ _ =>
        noFault_bind (noFault_atIndex _ _) fun b₂ _ => noFault_ok _
    · exact noFault_bind (noFault_atIndex _ _) fun b₁ _ =>
        noFault_bind (noFault_atIndex _ _) fun b₂ _ =>
          noFault_bind (noFault_atIndex _ _) fun b₃ _ =>
            noFault_bind (noFault_atIndex _ _) fun b₄ _ => noFault_ok _

/-! ## Elements of a body -/

/-- Whether a type that holds no elements takes a body of so many bytes. -/
def LeafFits (kind : UInt8) (n : ℕ) : Prop :=
  kind ∈ [typeNil, typeUint, typeText, typeUrl, typeBool] ∨ kind = typeInt ∧ n ≠ 0 ∨
    kind = typeUuid ∧ (n = 2 ∨ n = 4 ∨ n = 16)

/-- A sequence or an alternative. -/
def IsContainer (kind : UInt8) : Prop := kind = typeSequence ∨ kind = typeAlternative

/-- Some bytes are one whole element at some depth. -/
inductive WellFormed : ℕ → Bytes → Prop
  | leaf {depth : ℕ} {bytes : Bytes} {kind : UInt8} {h n : ℕ} (hdepth : depth ≤ maxDepth)
      (hheader : splitHeader bytes = .ok (kind, h, n)) (hlength : bytes.length = h + n)
      (hfits : LeafFits kind n) : WellFormed depth bytes
  | container {depth : ℕ} {bytes : Bytes} {kind : UInt8} {h n : ℕ} {items : List Bytes}
      (hdepth : depth ≤ maxDepth) (hheader : splitHeader bytes = .ok (kind, h, n))
      (hlength : bytes.length = h + n) (hkind : IsContainer kind)
      (hbody : bytes.drop h = items.flatten)
      (hitems : ∀ item ∈ items, WellFormed (depth + 1) item) : WellFormed depth bytes

/-- Reading some bytes from the left, a signed integer of no bytes comes before
anything malformed. -/
inductive ReachesEmptyInt : ℕ → Bytes → Prop
  | here {depth : ℕ} {buf : Bytes} {h : ℕ} (hdepth : depth ≤ maxDepth)
      (hheader : splitHeader buf = .ok (typeInt, h, 0)) : ReachesEmptyInt depth buf
  | inside {depth : ℕ} {buf : Bytes} {kind : UInt8} {h n : ℕ} {items : List Bytes} {rest : Bytes}
      (hdepth : depth ≤ maxDepth) (hheader : splitHeader buf = .ok (kind, h, n))
      (hlength : h + n ≤ buf.length) (hkind : IsContainer kind)
      (hbody : (buf.drop h).take n = items.flatten ++ rest)
      (hitems : ∀ item ∈ items, WellFormed (depth + 1) item)
      (hrest : ReachesEmptyInt (depth + 1) rest) : ReachesEmptyInt depth buf

structure Reads (depth : ℕ) (decode : Bytes → Result (DataElement × ℕ)) : Prop where
  taken {buf : Bytes} {e : DataElement} {used : ℕ} : decode buf = .ok (e, used) →
    0 < used ∧ used ≤ buf.length ∧ WellFormed depth (buf.take used)
  reads {bytes : Bytes} : WellFormed depth bytes → ∀ tail, ∃ e,
    decode (bytes ++ tail) = .ok (e, bytes.length)
  faults {buf : Bytes} {f : Fault} : decode buf = .error (.fault f) →
    f = .underflow ∧ ReachesEmptyInt depth buf
  stops {buf : Bytes} : ReachesEmptyInt depth buf → decode buf = .error (.fault .underflow)

theorem WellFormed.length_pos (h : WellFormed depth bytes) :
    0 < bytes.length := by
  cases h with
  | leaf hdepth hheader hlength hfits | container hdepth hheader hlength hkind hbody hitems =>
    obtain ⟨hpos, hle⟩ := splitHeader_bounds hheader
    exact lt_of_lt_of_le hpos hle

/-! ## The loop over a body -/

section Items

variable {depth : ℕ} {decode : Bytes → Result (DataElement × ℕ)} {turns : ℕ} {rest : Bytes}

theorem decodeItems_nil (turns : ℕ) : decodeItems decode turns [] = .ok [] := by
  cases turns with
  | zero | succ turns => rfl

/-- A turn of the loop reads one element off the front. -/
theorem decodeItems_succ (h : rest ≠ []) :
    decodeItems decode (turns + 1) rest =
      (decode rest >>= fun (item, used) => do
        let rest ← sliceFrom rest used
        let items ← decodeItems decode turns rest
        return item :: items) := by
  obtain ⟨b, tail, rfl⟩ := exists_cons_of_ne_nil h
  rfl

theorem decodeItems_of_ok {used : ℕ} {item : DataElement} (hrest : rest ≠ [])
    (hitem : decode rest = .ok (item, used)) (hused : used ≤ rest.length) :
    decodeItems decode (turns + 1) rest =
      (decodeItems decode turns (rest.drop used) >>= fun items => .ok (item :: items)) := by
  rw [decodeItems_succ hrest, hitem, ok_bind]
  dsimp only
  rw [sliceFrom_eq hused, ok_bind]
  rfl

theorem decodeItems_of_error {stop : Stop} (hrest : rest ≠ [])
    (hitem : decode rest = .error stop) : decodeItems decode (turns + 1) rest = .error stop := by
  rw [decodeItems_succ hrest, hitem, error_bind]

/-- A body that decodes is well-formed elements, one after the other. -/
theorem items_of_decodeItems (hreads : Reads depth decode)
    {items : List DataElement} (hok : decodeItems decode turns rest = .ok items) :
    ∃ parts : List Bytes, rest = parts.flatten ∧ ∀ part ∈ parts, WellFormed depth part := by
  induction turns generalizing rest items with
  | zero =>
    by_cases hrest : rest = []
    · exact ⟨[], hrest, fun _ h => absurd h not_mem_nil⟩
    · obtain ⟨b, tail, rfl⟩ := exists_cons_of_ne_nil hrest
      cases hok
  | succ turns ih =>
    by_cases hrest : rest = []
    · exact ⟨[], hrest, fun _ h => absurd h not_mem_nil⟩
    · rcases hitem : decode rest with stop | ⟨item, used⟩
      · rw [decodeItems_of_error hrest hitem] at hok
        cases hok
      · obtain ⟨hpos, hle, htaken⟩ := hreads.taken hitem
        rw [decodeItems_of_ok hrest hitem hle] at hok
        obtain ⟨items', hitems', -⟩ := bind_eq_ok.mp hok
        obtain ⟨parts, hparts, hwell⟩ := ih hitems'
        refine ⟨rest.take used :: parts, ?_, forall_mem_cons.mpr ⟨htaken, hwell⟩⟩
        rw [flatten_cons, ← hparts, take_append_drop]

/-- The loop faults only because an element does, behind some whole ones. -/
theorem reaches_of_decodeItems (hreads : Reads depth decode) {f : Fault}
    (hturns : rest.length ≤ turns) (hfault : decodeItems decode turns rest = .error (.fault f)) :
    f = .underflow ∧ ∃ (parts : List Bytes) (rest' : Bytes), rest = parts.flatten ++ rest' ∧
      (∀ part ∈ parts, WellFormed depth part) ∧ ReachesEmptyInt depth rest' := by
  induction turns generalizing rest with
  | zero =>
    rw [eq_nil_of_length_eq_zero (Nat.le_zero.mp hturns), decodeItems_nil] at hfault
    cases hfault
  | succ turns ih =>
    by_cases hrest : rest = []
    · rw [hrest, decodeItems_nil] at hfault
      cases hfault
    · rcases hitem : decode rest with stop | ⟨item, used⟩
      · rw [decodeItems_of_error hrest hitem] at hfault
        cases hfault
        obtain ⟨hf, hreaches⟩ := hreads.faults hitem
        exact ⟨hf, [], rest, rfl, fun _ h => absurd h not_mem_nil, hreaches⟩
      · obtain ⟨hpos, hle, htaken⟩ := hreads.taken hitem
        rw [decodeItems_of_ok hrest hitem hle] at hfault
        have hinner : decodeItems decode turns (rest.drop used) = .error (.fault f) := by
          rcases hitems : decodeItems decode turns (rest.drop used) with stop | items
          · rw [hitems, error_bind] at hfault
            cases hfault
            rfl
          · rw [hitems, ok_bind] at hfault
            cases hfault
        have hshorter : (rest.drop used).length ≤ turns := by
          rw [length_drop]
          omega
        obtain ⟨hf, parts, rest', hparts, hwell, hreaches⟩ := ih hshorter hinner
        refine ⟨hf, rest.take used :: parts, rest', ?_,
          forall_mem_cons.mpr ⟨htaken, hwell⟩, hreaches⟩
        rw [flatten_cons, append_assoc, ← hparts, take_append_drop]

/-- Whole elements are read one by one, and then the loop is where they end. -/
theorem decodeItems_append (hreads : Reads depth decode) {parts : List Bytes} (rest : Bytes)
    (turns : ℕ) (hwell : ∀ part ∈ parts, WellFormed depth part)
    (hturns : (parts.flatten ++ rest).length ≤ turns) :
    ∃ (items : List DataElement) (left : ℕ), rest.length ≤ left ∧
      decodeItems decode turns (parts.flatten ++ rest) =
        (decodeItems decode left rest >>= fun more => .ok (items ++ more)) := by
  induction parts generalizing turns with
  | nil =>
    refine ⟨[], turns, hturns, ?_⟩
    rw [flatten_nil, nil_append]
    rcases decodeItems decode turns rest with stop | more
    · rfl
    · rfl
  | cons part parts ih =>
    obtain ⟨hpart, hwell⟩ := forall_mem_cons.mp hwell
    have hpos := hpart.length_pos
    rw [flatten_cons, append_assoc] at hturns ⊢
    rw [length_append] at hturns
    obtain ⟨turns, rfl⟩ : ∃ turns', turns = turns' + 1 := ⟨turns - 1, by omega⟩
    obtain ⟨item, hitem⟩ := hreads.reads hpart (parts.flatten ++ rest)
    obtain ⟨items, left, hleft, hitems⟩ := ih turns hwell (by omega)
    refine ⟨item :: items, left, hleft, ?_⟩
    have hnonempty : part ++ (parts.flatten ++ rest) ≠ [] := by
      intro hnil
      rw [(append_eq_nil_iff.mp hnil).1] at hpos
      exact absurd hpos (Nat.lt_irrefl 0)
    have hfits : part.length ≤ (part ++ (parts.flatten ++ rest)).length := by
      rw [length_append]
      exact Nat.le_add_right _ _
    rw [decodeItems_of_ok hnonempty hitem hfits, drop_left, hitems]
    rcases decodeItems decode left rest with stop | more
    · rfl
    · rfl

end Items

/-! ## One element -/

section Body

variable (decode : Bytes → Result (DataElement × ℕ)) (body : Bytes)

theorem decodeBody_int :
    decodeBody decode typeInt body = (beInt body >>= fun v => .ok (.int v)) := rfl

theorem decodeBody_uuid : decodeBody decode typeUuid body = decodeUuid body := rfl

theorem decodeBody_sequence :
    decodeBody decode typeSequence body =
      (decodeItems decode body.length body >>= fun items => .ok (.sequence items)) := rfl

theorem decodeBody_alternative :
    decodeBody decode typeAlternative body =
      (decodeItems decode body.length body >>= fun items => .ok (.alternative items)) := rfl

end Body

/-- A signed integer of no bytes has no sign bit to look for. -/
theorem beInt_nil : beInt [] = .error (.fault .underflow) := rfl

theorem beInt_ok (h : body ≠ []) : ∃ v, beInt body = .ok v := by
  have hpos : 0 < body.length := length_pos_of_ne_nil h
  unfold beInt
  dsimp only
  split
  · rename_i hbits
    rw [subtract_eq (by omega), ok_bind, shiftLeft_eq (by omega), ok_bind]
    split
    · rw [shiftLeft_eq hbits, ok_bind]
      exact ⟨_, rfl⟩
    · exact ⟨_, rfl⟩
  · exact ⟨_, rfl⟩

theorem index_eq (buf : Bytes) (i : ℕ) (h : i < buf.length) : ∃ b, index buf i = .ok b := by
  rw [index, getElem?_eq_getElem h]
  exact ⟨_, rfl⟩

theorem decodeUuid_ok
    (h : body.length = 2 ∨ body.length = 4 ∨ body.length = 16) : ∃ e, decodeUuid body = .ok e := by
  obtain h | h | h := h
  · obtain ⟨b₀, h₀⟩ := index_eq body 0 (by omega)
    obtain ⟨b₁, h₁⟩ := index_eq body 1 (by omega)
    rw [decodeUuid, if_pos h, h₀, ok_bind, h₁, ok_bind]
    exact ⟨_, rfl⟩
  · obtain ⟨b₀, h₀⟩ := index_eq body 0 (by omega)
    obtain ⟨b₁, h₁⟩ := index_eq body 1 (by omega)
    obtain ⟨b₂, h₂⟩ := index_eq body 2 (by omega)
    obtain ⟨b₃, h₃⟩ := index_eq body 3 (by omega)
    rw [decodeUuid, if_neg (by omega), if_pos h, h₀, ok_bind, h₁, ok_bind, h₂, ok_bind, h₃, ok_bind]
    exact ⟨_, rfl⟩
  · rw [decodeUuid, if_neg (by omega), if_neg (by omega), dif_pos h]
    exact ⟨_, rfl⟩

theorem decodeUuid_error (h : ¬ (body.length = 2 ∨ body.length = 4 ∨ body.length = 16)) :
    decodeUuid body = .error (.error (.badElement "uuid width" body.length)) := by
  rw [decodeUuid, if_neg (by omega), if_neg (by omega), dif_neg (by omega)]

section

variable (decode : Bytes → Result (DataElement × ℕ))

/-- A leaf of the right width decodes. -/
theorem decodeBody_leaf
    (hfits : LeafFits kind body.length) : ∃ e, decodeBody decode kind body = .ok e := by
  obtain hmem | ⟨rfl, hbody⟩ | ⟨rfl, hwidth⟩ := hfits
  · simp only [mem_cons, not_mem_nil, or_false] at hmem
    obtain rfl | rfl | rfl | rfl | rfl := hmem
    · exact ⟨_, rfl⟩
    · exact ⟨_, rfl⟩
    · exact ⟨_, rfl⟩
    · exact ⟨_, rfl⟩
    · exact ⟨_, rfl⟩
  · obtain ⟨v, hv⟩ := beInt_ok (ne_nil_of_length_pos (Nat.pos_of_ne_zero hbody))
    rw [decodeBody_int, hv, ok_bind]
    exact ⟨_, rfl⟩
  · rw [decodeBody_uuid]
    exact decodeUuid_ok hwidth

/-- What a type without elements does with a body it does not take. -/
theorem decodeBody_misfit (hkind : ¬ IsContainer kind) (hfits : ¬ LeafFits kind body.length) :
    kind = typeInt ∧ body = [] ∨ ∃ e, decodeBody decode kind body = .error (.error e) := by
  have hmem : kind ∉ [typeNil, typeUint, typeText, typeUrl, typeBool] := fun h => hfits (.inl h)
  simp only [mem_cons, not_mem_nil, or_false, not_or] at hmem
  obtain ⟨hnil, huint, htext, hurl, hbool⟩ := hmem
  by_cases hint : kind = typeInt
  · left
    refine ⟨hint, eq_nil_of_length_eq_zero ?_⟩
    by_contra hbody
    exact hfits (.inr (.inl ⟨hint, hbody⟩))
  · right
    rw [decodeBody, if_neg hnil, if_neg huint, if_neg hint]
    by_cases huuid : kind = typeUuid
    · rw [if_pos huuid, decodeUuid_error (fun h => hfits (.inr (.inr ⟨huuid, h⟩)))]
      exact ⟨_, rfl⟩
    · have hother : ¬ (kind = typeSequence ∨ kind = typeAlternative) := hkind
      rw [if_neg huuid, if_neg htext, if_neg hurl, if_neg hbool, if_neg hother]
      exact ⟨_, rfl⟩

/-- A container is its elements, wrapped. -/
theorem decodeBody_container (body : Bytes) (hkind : IsContainer kind) :
    ∃ wrap : List DataElement → DataElement, decodeBody decode kind body =
      (decodeItems decode body.length body >>= fun items => .ok (wrap items)) := by
  obtain rfl | rfl := hkind
  · exact ⟨.sequence, rfl⟩
  · exact ⟨.alternative, rfl⟩

end

/-- What a call does that is not too deep: whether its header splits and its
body is there, and then what the body gives. -/
theorem decodeAt_succ (levels : ℕ) (buf : Bytes) (hdepth : depth ≤ maxDepth) :
    (∃ e, decodeAt (levels + 1) depth buf = .error (.error e) ∧
      ∀ kind h n, splitHeader buf = .ok (kind, h, n) → buf.length < h + n) ∨
    ∃ kind h n, splitHeader buf = .ok (kind, h, n) ∧ h + n ≤ buf.length ∧
      decodeAt (levels + 1) depth buf =
        (decodeBody (decodeAt levels (depth + 1)) kind ((buf.drop h).take n) >>=
          fun element => .ok (element, h + n)) := by
  rw [decodeAt, if_neg (by omega)]
  rcases hheader : splitHeader buf with stop | ⟨kind, h, n⟩
  · obtain f | e := stop
    · exact absurd hheader (noFault_splitHeader buf f)
    · exact .inl ⟨e, rfl, fun _ _ _ h => by cases h⟩
  · rw [ok_bind]
    dsimp only
    by_cases hlength : buf.length < h + n
    · rw [if_pos hlength]
      refine .inl ⟨_, rfl, ?_⟩
      intro kind' h' n' heq
      cases heq
      exact hlength
    · rw [if_neg hlength, slice_eq (Nat.le_add_right h n) (by omega), ok_bind,
        Nat.add_sub_cancel_left]
      exact .inr ⟨kind, h, n, rfl, by omega, rfl⟩

/-! ## Every depth -/

theorem wellFormed_depth (h : WellFormed depth bytes) :
    depth ≤ maxDepth := by
  cases h with
  | leaf hdepth | container hdepth => exact hdepth

theorem reachesEmptyInt_depth (h : ReachesEmptyInt depth buf) :
    depth ≤ maxDepth := by
  cases h with
  | here hdepth | inside hdepth => exact hdepth

theorem ReachesEmptyInt.ne_nil (h : ReachesEmptyInt depth buf) :
    buf ≠ [] := by
  rintro rfl
  cases h with
  | here hdepth hheader | inside hdepth hheader => cases hheader

/-- The depth that is refused: nothing is well formed there, and nothing faults.
-/
theorem reads_tooDeep (levels : ℕ) :
    Reads (maxDepth + 1) (decodeAt (levels + 1) (maxDepth + 1)) := by
  have hrefused (buf : Bytes) :
      decodeAt (levels + 1) (maxDepth + 1) buf = .error (.error (.tooDeep maxDepth)) := by
    rw [decodeAt, if_pos (Nat.lt_succ_self maxDepth)]
  constructor
  · intro buf e used h
    rw [hrefused] at h
    cases h
  · intro bytes h
    exact absurd (wellFormed_depth h) (Nat.not_succ_le_self maxDepth)
  · intro buf f h
    rw [hrefused] at h
    cases h
  · intro buf h
    exact absurd (reachesEmptyInt_depth h) (Nat.not_succ_le_self maxDepth)

section Step

variable {levels depth : ℕ} (hnested : Reads (depth + 1) (decodeAt levels (depth + 1)))

include hnested

theorem decodeBody_of_wellFormed {bytes : Bytes} {kind : UInt8} {h n : ℕ}
    (hwell : WellFormed depth bytes) (hheader : splitHeader bytes = .ok (kind, h, n)) :
    bytes.length = h + n ∧
      ∃ e, decodeBody (decodeAt levels (depth + 1)) kind (bytes.drop h) = .ok e := by
  cases hwell with
  | leaf _ hheader' hlength hfits =>
    rw [hheader] at hheader'
    cases hheader'
    refine ⟨hlength, decodeBody_leaf _ ?_⟩
    rwa [length_drop, hlength, Nat.add_sub_cancel_left]
  | container _ hheader' hlength hkind hbody hitems =>
    rw [hheader] at hheader'
    cases hheader'
    obtain ⟨wrap, hwrap⟩ :=
      decodeBody_container (decodeAt levels (depth + 1)) (bytes.drop h) hkind
    obtain ⟨items, left, -, hread⟩ := decodeItems_append hnested []
      (bytes.drop h).length hitems (by rw [append_nil, ← hbody])
    rw [append_nil, ← hbody, decodeItems_nil, ok_bind] at hread
    refine ⟨hlength, wrap (items ++ []), ?_⟩
    rw [hwrap, hread, ok_bind]

variable {buf : Bytes} {kind : UInt8} {h n : ℕ} (hheader : splitHeader buf = .ok (kind, h, n))
  (hlength : h + n ≤ buf.length)

include hheader hlength

/-- A body that was read belongs to a whole element. -/
theorem wellFormed_of_decodeBody (hdepth : depth ≤ maxDepth) {e : DataElement}
    (hread : decodeBody (decodeAt levels (depth + 1)) kind ((buf.drop h).take n) = .ok e) :
    WellFormed depth (buf.take (h + n)) := by
  have htaken := splitHeader_take hheader (Nat.le_add_right h n)
  have hwhole : (buf.take (h + n)).length = h + n := length_take_of_le hlength
  have hbody : (buf.take (h + n)).drop h = (buf.drop h).take n := by
    rw [drop_take, Nat.add_sub_cancel_left]
  have hn : ((buf.drop h).take n).length = n := by
    rw [length_take, length_drop]
    omega
  by_cases hkind : IsContainer kind
  · obtain ⟨wrap, hwrap⟩ := decodeBody_container (decodeAt levels (depth + 1))
      ((buf.drop h).take n) hkind
    rw [hwrap] at hread
    obtain ⟨items, hitems, -⟩ := bind_eq_ok.mp hread
    obtain ⟨parts, hparts, hwell⟩ := items_of_decodeItems hnested hitems
    exact .container hdepth htaken hwhole hkind (hbody.trans hparts) hwell
  · by_cases hfits : LeafFits kind n
    · exact .leaf hdepth htaken hwhole hfits
    · rw [← hn] at hfits
      obtain ⟨rfl, hempty⟩ | ⟨e', herror⟩ :=
        decodeBody_misfit (decodeAt levels (depth + 1)) hkind hfits
      · rw [hempty, decodeBody_int, beInt_nil] at hread
        cases hread
      · rw [herror] at hread
        cases hread

/-- A body that faults is, or holds, a signed integer of no bytes. -/
theorem reaches_of_decodeBody (hdepth : depth ≤ maxDepth) {f : Fault}
    (hfault : decodeBody (decodeAt levels (depth + 1)) kind ((buf.drop h).take n) =
      .error (.fault f)) : f = .underflow ∧ ReachesEmptyInt depth buf := by
  have hn : ((buf.drop h).take n).length = n := by
    rw [length_take, length_drop]
    omega
  by_cases hkind : IsContainer kind
  · obtain ⟨wrap, hwrap⟩ := decodeBody_container (decodeAt levels (depth + 1))
      ((buf.drop h).take n) hkind
    have hitems : decodeItems (decodeAt levels (depth + 1)) ((buf.drop h).take n).length
        ((buf.drop h).take n) = .error (.fault f) := by
      rw [hwrap] at hfault
      rcases hloop : decodeItems (decodeAt levels (depth + 1)) ((buf.drop h).take n).length
        ((buf.drop h).take n) with stop | items
      · rw [hloop, error_bind] at hfault
        cases hfault
        rfl
      · rw [hloop, ok_bind] at hfault
        cases hfault
    obtain ⟨hf, parts, rest, hbody, hwell, hrest⟩ := reaches_of_decodeItems hnested le_rfl hitems
    exact ⟨hf, .inside hdepth hheader hlength hkind hbody hwell hrest⟩
  · by_cases hfits : LeafFits kind ((buf.drop h).take n).length
    · obtain ⟨e, hread⟩ := decodeBody_leaf (decodeAt levels (depth + 1)) hfits
      rw [hread] at hfault
      cases hfault
    · obtain ⟨rfl, hempty⟩ | ⟨e', herror⟩ :=
        decodeBody_misfit (decodeAt levels (depth + 1)) hkind hfits
      · rw [hempty, decodeBody_int, beInt_nil, error_bind] at hfault
        cases hfault
        rw [hempty, length_nil] at hn
        subst hn
        exact ⟨rfl, .here hdepth hheader⟩
      · rw [herror] at hfault
        cases hfault

/-- A body that is, or holds, a signed integer of no bytes faults. -/
theorem decodeBody_of_reaches (hreaches : ReachesEmptyInt depth buf) :
    decodeBody (decodeAt levels (depth + 1)) kind ((buf.drop h).take n) =
      .error (.fault .underflow) := by
  cases hreaches with
  | here _ hheader' =>
    rw [hheader] at hheader'
    cases hheader'
    rw [take_zero, decodeBody_int, beInt_nil, error_bind]
  | @inside _ _ _ _ _ items rest _ hheader' _ hkind hbody hitems hrest =>
    rw [hheader] at hheader'
    cases hheader'
    obtain ⟨wrap, hwrap⟩ := decodeBody_container (decodeAt levels (depth + 1))
      ((buf.drop h).take n) hkind
    obtain ⟨items', left, hleft, hread⟩ := decodeItems_append hnested rest
      ((buf.drop h).take n).length hitems (by rw [← hbody])
    have hpos : 0 < rest.length := length_pos_of_ne_nil hrest.ne_nil
    obtain ⟨left, rfl⟩ : ∃ left', left = left' + 1 := ⟨left - 1, by omega⟩
    rw [decodeItems_of_error hrest.ne_nil (hnested.stops hrest), error_bind, ← hbody] at hread
    rw [hwrap, hread, error_bind]

end Step

/-- A decoder reads at a depth if its nested calls do. -/
theorem reads_succ {levels : ℕ} (hdepth : depth ≤ maxDepth)
    (hnested : Reads (depth + 1) (decodeAt levels (depth + 1))) :
    Reads depth (decodeAt (levels + 1) depth) := by
  constructor
  · intro buf e used hok
    obtain ⟨e', herror, -⟩ | ⟨kind, h, n, hheader, hlength, hbody⟩ :=
      decodeAt_succ levels buf hdepth
    · rw [herror] at hok
      cases hok
    · rw [hbody] at hok
      obtain ⟨element, hread, hresult⟩ := bind_eq_ok.mp hok
      cases hresult
      have hpos := (splitHeader_bounds hheader).1
      exact ⟨by omega, hlength, wellFormed_of_decodeBody hnested hheader hlength hdepth hread⟩
  · intro bytes hwell tail
    obtain ⟨kind, h, n, hheader⟩ : ∃ kind h n, splitHeader bytes = .ok (kind, h, n) := by
      cases hwell with
      | leaf _ hheader | container _ hheader => exact ⟨_, _, _, hheader⟩
    obtain ⟨hwhole, element, hread⟩ := decodeBody_of_wellFormed hnested hwell hheader
    have hheader' := splitHeader_append hheader tail
    obtain ⟨e', -, hshort⟩ | ⟨kind', h', n', hsplit, hlength, hbody⟩ :=
      decodeAt_succ levels (bytes ++ tail) hdepth
    · have hlt := hshort kind h n hheader'
      rw [length_append] at hlt
      omega
    · rw [hheader'] at hsplit
      cases hsplit
      have hinner : ((bytes ++ tail).drop h).take n = bytes.drop h := by
        rw [drop_append_of_le_length (by omega),
          take_left' (by rw [length_drop]; omega)]
      refine ⟨element, ?_⟩
      rw [hbody, hinner, hread, ok_bind, hwhole]
  · intro buf f hfault
    obtain ⟨e', herror, -⟩ | ⟨kind, h, n, hheader, hlength, hbody⟩ :=
      decodeAt_succ levels buf hdepth
    · rw [herror] at hfault
      cases hfault
    · rw [hbody] at hfault
      rcases hread : decodeBody (decodeAt levels (depth + 1)) kind ((buf.drop h).take n)
        with stop | element
      · rw [hread, error_bind] at hfault
        cases hfault
        exact reaches_of_decodeBody hnested hheader hlength hdepth hread
      · rw [hread, ok_bind] at hfault
        cases hfault
  · intro buf hreaches
    obtain ⟨e', -, hshort⟩ | ⟨kind, h, n, hheader, hlength, hbody⟩ :=
      decodeAt_succ levels buf hdepth
    · exfalso
      cases hreaches with
      | here _ hheader =>
        have hlt := hshort _ _ _ hheader
        have hle := (splitHeader_bounds hheader).2
        omega
      | inside _ hheader hlength =>
        have hlt := hshort _ _ _ hheader
        omega
    · rw [hbody, decodeBody_of_reaches hnested hheader hlength hreaches, error_bind]

/-- **Every depth up to the refused one is read**, by induction on the levels
that are left above it. -/
theorem reads_decodeAt {levels depth : ℕ} (hlevels : levels + depth = maxDepth + 1) :
    Reads depth (decodeAt (levels + 1) depth) := by
  induction levels generalizing depth with
  | zero =>
    rw [Nat.zero_add] at hlevels
    subst hlevels
    exact reads_tooDeep 0
  | succ levels ih => exact reads_succ (by omega) (ih (by omega))

theorem reads_decode : Reads 0 DataElement.decode :=
  @reads_decodeAt (maxDepth + 1) 0 rfl

end Castaway.Sdp
