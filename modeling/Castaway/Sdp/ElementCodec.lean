import Castaway.Sdp.ElementSafety
import Mathlib.Data.List.Induction
import Mathlib.Data.Nat.Bitwise

/-!
# Elements survive their encoding

What an element's bytes decode to is the element with the two unsigned integers
of a pinned width replaced by the plain one of the same value: a decoded integer
no longer carries its width.  A signed integer is written in its low bytes and
comes back by its sign bit (`beInt_beBytes`); containers by induction on the
element, a level of nesting at a time (`decodeAt_encode`).
-/

namespace Castaway.Sdp

open List

/-! ## Unsigned integers -/

theorem beUint_append_singleton (body : Bytes) (b : UInt8) :
    beUint (body ++ [b]) = (beUint body <<< 8) ||| b.toUInt64 := by
  rw [beUint, foldl_append]
  rfl

theorem toNat_shiftLeft_or (x : UInt64) (b : UInt8) :
    ((x <<< 8) ||| b.toUInt64).toNat = (x.toNat * 256 + b.toNat) % 2 ^ 64 := by
  have hb : b.toNat < 2 ^ 8 := b.toNat_lt
  have hshift : (x <<< 8).toNat = (x.toNat % 2 ^ 56) <<< 8 := by
    rw [UInt64.toNat_shiftLeft, Nat.shiftLeft_eq, Nat.shiftLeft_eq]
    change x.toNat * 2 ^ 8 % 2 ^ 64 = _
    omega
  rw [UInt64.toNat_or, hshift, UInt8.toNat_toUInt64, ← Nat.shiftLeft_add_eq_or_of_lt hb,
    Nat.shiftLeft_eq]
  omega

/-- The number of a body, up to the 64 bits it is kept in. -/
theorem toNat_beUint (body : Bytes) : (beUint body).toNat = beNat body % 2 ^ 64 := by
  induction body using List.reverseRecOn with
  | nil => rfl
  | append_singleton body b ih =>
    rw [beUint_append_singleton, toNat_shiftLeft_or, ih, beNat_append_singleton]
    omega

variable {width n i : ℕ}

theorem beUint_beBytes (hn : n < 256 ^ width) :
    beUint (beBytes width n) = UInt64.ofNat n := by
  apply UInt64.toNat_inj.mp
  rw [toNat_beUint, beNat_beBytes hn, UInt64.toNat_ofNat']

/-! ## Signed integers -/

theorem toInt_eq (v : Int64) :
    v.toInt = if 2 * v.toUInt64.toNat < 2 ^ 64 then (v.toUInt64.toNat : ℤ)
      else (v.toUInt64.toNat : ℤ) - 2 ^ 64 := by
  change v.toBitVec.toInt = _
  rw [BitVec.toInt_eq_toNat_cond]
  rfl

/-- The top bit of a number says which half it is in. -/
theorem and_two_pow_ne_zero (h : n < 2 ^ (i + 1)) : n &&& 2 ^ i ≠ 0 ↔ 2 ^ i ≤ n := by
  rw [Nat.and_two_pow]
  constructor
  · intro hne
    by_contra hlt
    rw [Nat.testBit_lt_two_pow (Nat.lt_of_not_le hlt), Bool.toNat_false, Nat.zero_mul] at hne
    exact hne rfl
  · intro hle
    rw [Nat.testBit_of_two_pow_le_and_two_pow_add_one_gt hle h, Bool.toNat_true, Nat.one_mul]
    exact (Nat.two_pow_pos i).ne'

theorem one_shiftLeft (hi : i < 64) :
    (1 : UInt64) <<< UInt64.ofNat i = UInt64.ofNat (2 ^ i) := by
  apply UInt64.toNat_inj.mp
  rw [UInt64.toNat_shiftLeft, UInt64.toNat_ofNat', UInt64.toNat_ofNat',
    Nat.mod_eq_of_lt (lt_trans hi (by decide)), Nat.mod_eq_of_lt hi, Nat.shiftLeft_eq]
  change 1 * 2 ^ i % 2 ^ 64 = _
  rw [Nat.one_mul]

/-- A body of one to seven bytes is signed by its top bit. -/
theorem beInt_eq {body : Bytes} (hi : body.length * 8 = i + 1) (hwidth : i + 1 < 64) :
    beInt body = .ok (if 2 ^ i ≤ beNat body then (beUint body - UInt64.ofNat (2 ^ (i + 1))).toInt64
      else (beUint body).toInt64) := by
  have hlt : beNat body < 2 ^ (i + 1) := by
    calc beNat body < 256 ^ body.length := beNat_lt body
      _ = 2 ^ (i + 1) := by rw [← hi, Nat.mul_comm, Nat.pow_mul]
  have hsmall : 2 ^ (i + 1) < 2 ^ 64 := Nat.pow_lt_pow_right (by decide) hwidth
  have hhalf : 2 ^ i < 2 ^ (i + 1) := Nat.pow_lt_pow_right (by decide) (Nat.lt_succ_self i)
  have hsign : beUint body &&& UInt64.ofNat (2 ^ i) ≠ 0 ↔ 2 ^ i ≤ beNat body := by
    rw [← and_two_pow_ne_zero hlt, ne_eq, ne_eq, ← UInt64.toNat_inj, UInt64.toNat_and,
      toNat_beUint, UInt64.toNat_ofNat', Nat.mod_eq_of_lt (lt_trans hlt hsmall),
      Nat.mod_eq_of_lt (lt_trans hhalf hsmall)]
    rfl
  rw [beInt, hi, if_pos hwidth, subtract_eq (Nat.le_add_left 1 i), ok_bind, Nat.add_sub_cancel,
    shiftLeft_eq (by omega), ok_bind, one_shiftLeft (by omega)]
  by_cases hneg : 2 ^ i ≤ beNat body
  · rw [if_pos hneg, if_pos (hsign.mpr hneg), shiftLeft_eq hwidth, ok_bind, one_shiftLeft hwidth]
    rfl
  · rw [if_neg hneg, if_neg (fun h => hneg (hsign.mp h))]
    rfl

/-- The low bytes of a number that fits in them are the number itself, or lack
the ones above that its sign stands for. -/
theorem toUInt64_of_low {v : Int64} {raw : UInt64} (hi : i + 1 < 64)
    (hraw : raw.toNat = v.toUInt64.toNat % 2 ^ (i + 1)) (hlow : -(2 ^ i : ℤ) ≤ v.toInt)
    (hhigh : v.toInt < 2 ^ i) :
    (if 2 ^ i ≤ raw.toNat then raw - UInt64.ofNat (2 ^ (i + 1)) else raw) = v.toUInt64 := by
  have hv := toInt_eq v
  have hn : v.toUInt64.toNat < 2 ^ 64 := v.toUInt64.toNat_lt
  have hsmall : 2 ^ (i + 1) < 2 ^ 64 := Nat.pow_lt_pow_right (by decide) hi
  have hhalf : 2 ^ (i + 1) = 2 * 2 ^ i := Nat.pow_succ'
  have hcast : ((2 ^ i : ℕ) : ℤ) = 2 ^ i := by push_cast; rfl
  rw [← hcast] at hlow hhigh
  generalize hN : v.toUInt64.toNat = N at *
  by_cases hnonneg : 2 * N < 2 ^ 64
  · rw [if_pos hnonneg] at hv
    have hsame : raw.toNat = N := by rw [hraw, Nat.mod_eq_of_lt (by omega)]
    rw [if_neg (by omega)]
    exact UInt64.toNat_inj.mp (hsame.trans hN.symm)
  · rw [if_neg hnonneg] at hv
    -- the bytes above the low ones are all ones, a multiple of the modulus
    obtain ⟨k, hk⟩ : 2 ^ (i + 1) ∣ 2 ^ 64 := Nat.pow_dvd_pow 2 hi.le
    obtain ⟨k, rfl⟩ : ∃ k', k = k' + 1 := ⟨k - 1, by
      have : k ≠ 0 := by
        rintro rfl
        rw [Nat.mul_zero] at hk
        exact absurd hk (by decide)
      omega⟩
    rw [Nat.mul_succ] at hk
    have hsum : N = (N + 2 ^ (i + 1) - 2 ^ 64) + 2 ^ (i + 1) * k := by omega
    have hlow' : raw.toNat = N + 2 ^ (i + 1) - 2 ^ 64 := by
      rw [hraw]
      conv_lhs => rw [hsum]
      rw [Nat.add_mul_mod_self_left, Nat.mod_eq_of_lt (by omega)]
    rw [if_pos (by omega)]
    apply UInt64.toNat_inj.mp
    rw [UInt64.toNat_sub, UInt64.toNat_ofNat', Nat.mod_eq_of_lt hsmall, hN, hlow']
    rw [show 2 ^ 64 - 2 ^ (i + 1) + (N + 2 ^ (i + 1) - 2 ^ 64) = N by omega, Nat.mod_eq_of_lt hn]

/-- What the bytes of a signed integer that fits in them are read as. -/
theorem beInt_beBytes {v : Int64} (hwidth : width = 1 ∨ width = 2 ∨ width = 4)
    (hfits : fitsSigned width v) : beInt (beBytes width v.toUInt64.toNat) = .ok v := by
  rw [fitsSigned, Bool.and_eq_true, decide_eq_true_iff, decide_eq_true_iff] at hfits
  obtain ⟨hlow, hhigh⟩ := hfits
  obtain ⟨i, hi⟩ : ∃ i, width * 8 = i + 1 := ⟨width * 8 - 1, by omega⟩
  have hwidth' : i + 1 < 64 := by omega
  have hexponent : 8 * width - 1 = i := by omega
  rw [hexponent] at hlow hhigh
  have hbody : beNat (beBytes width v.toUInt64.toNat) = v.toUInt64.toNat % 2 ^ (i + 1) := by
    rw [beNat, beBytes, reverse_reverse, leNat_leBytes_mod, ← hi, Nat.mul_comm width,
      Nat.pow_mul]
  have hsmall : 2 ^ (i + 1) < 2 ^ 64 := Nat.pow_lt_pow_right (by decide) hwidth'
  have hraw : (beUint (beBytes width v.toUInt64.toNat)).toNat =
      v.toUInt64.toNat % 2 ^ (i + 1) := by
    rw [toNat_beUint, hbody, Nat.mod_eq_of_lt (lt_trans (Nat.mod_lt _ (Nat.two_pow_pos _)) hsmall)]
  have hextended := toUInt64_of_low hwidth' hraw hlow hhigh
  rw [beInt_eq (by rw [length_beBytes, hi]) hwidth', hbody, ← hraw, ← apply_ite UInt64.toInt64,
    hextended, Int64.toInt64_toUInt64]

theorem beInt_beBytes_eight (v : Int64) : beInt (beBytes 8 v.toUInt64.toNat) = .ok v := by
  have hn : v.toUInt64.toNat < 2 ^ 64 := v.toUInt64.toNat_lt
  rw [beInt, length_beBytes, if_neg (by decide), beUint_beBytes (by omega), UInt64.ofNat_toNat,
    Int64.toInt64_toUInt64]
  rfl

/-! ## What is encoded and what comes back -/

namespace DataElement

mutual

/-- How deep containers nest in an element.  An element without items is not
nested. -/
def nesting : DataElement → ℕ
  | sequence items => nestingItems items
  | alternative items => nestingItems items
  | _ => 0

def nestingItems : List DataElement → ℕ
  | [] => 0
  | item :: items => max (nesting item + 1) (nestingItems items)

end

mutual

/-- Every encoded string and container body in an element is within 16 bits. -/
def Fits : DataElement → Prop
  | text s => (utf8 s).length ≤ 65535
  | url s => (utf8 s).length ≤ 65535
  | sequence items => (encodeAll items).length ≤ 65535 ∧ FitsItems items
  | alternative items => (encodeAll items).length ≤ 65535 ∧ FitsItems items
  | _ => True

def FitsItems : List DataElement → Prop
  | [] => True
  | item :: items => Fits item ∧ FitsItems items

end

mutual

/-- The element with its pinned integers replaced by plain ones. -/
def canonical : DataElement → DataElement
  | uint16 v => uint v.toUInt64
  | uint32 v => uint v.toUInt64
  | sequence items => sequence (canonicalItems items)
  | alternative items => alternative (canonicalItems items)
  | e => e

def canonicalItems : List DataElement → List DataElement
  | [] => []
  | item :: items => canonical item :: canonicalItems items

end

end DataElement

/-! ## UUIDs -/

/-- A UUID is written as a body of its own width, and read from it. -/
theorem putUuid_eq (u : Uuid) : ∃ b body, putUuid u = b :: body ∧
      (∀ rest, splitHeader (b :: rest) = .ok (typeUuid, 1, body.length)) ∧
      decodeUuid body = .ok (.uuid u) := by
  cases hwidth : u.width with
  | short =>
    obtain ⟨value, hvalue, hu⟩ := Uuid.eq_short hwidth
    obtain ⟨b₀, b₁, hbytes, hnat⟩ := exists_beBytes_two value.toNat_lt
    refine ⟨headerByte typeUuid 1, beBytes 2 value.toNat, ?_, fun _ => rfl, ?_⟩
    · rw [putUuid, hwidth, hvalue]
      rfl
    · rw [hbytes]
      change Except.ok (DataElement.uuid (Uuid.short (UInt16.ofNat (beNat [b₀, b₁])))) = _
      rw [hnat, UInt16.ofNat_toNat, ← hu]
  | medium =>
    have hu := Uuid.eq_medium hwidth
    have hlength : (u.bytes.take 4).length = 4 := by
      rw [length_take, u.length_bytes]
      rfl
    obtain ⟨b₀, b₁, b₂, b₃, hbytes⟩ := length_eq_four.mp hlength
    refine ⟨headerByte typeUuid 2, u.bytes.take 4, ?_, fun _ => ?_, ?_⟩
    · rw [putUuid, hwidth]
    · rw [hlength]
      rfl
    · rw [hbytes] at hu ⊢
      exact congrArg (fun v => Except.ok (DataElement.uuid v)) hu.symm
  | long =>
    have hlength := u.length_bytes
    refine ⟨headerByte typeUuid 4, u.bytes, ?_, fun _ => ?_, ?_⟩
    · rw [putUuid, hwidth]
    · rw [hlength]
      rfl
    · rw [decodeUuid, if_neg (by omega), if_neg (by omega), dif_pos hlength,
        ← Uuid.eq_long hwidth]
      rfl

/-! ## Explicit lengths -/

/-- A body of up to 16 bits of length is written behind a header that says how
long it is. -/
theorem putString_eq {kind : UInt8} {body : Bytes}
    (hkind : kind ∈ [typeText, typeUrl, typeSequence, typeAlternative])
    (hlength : body.length ≤ 65535) : ∃ header, putString kind body = header ++ body ∧
      ∀ rest, splitHeader (header ++ rest) = .ok (kind, header.length, body.length) := by
  have hfive (b : UInt8) (rest : Bytes) :
      splitHeader (headerByte kind 5 :: b :: rest) = .ok (kind, 2, b.toNat) := by
    simp only [mem_cons, not_mem_nil, or_false] at hkind
    obtain rfl | rfl | rfl | rfl := hkind
    · rfl
    · rfl
    · rfl
    · rfl
  have hsix (b₀ b₁ : UInt8) (rest : Bytes) :
      splitHeader (headerByte kind 6 :: b₀ :: b₁ :: rest) = .ok (kind, 3, beNat [b₀, b₁]) := by
    simp only [mem_cons, not_mem_nil, or_false] at hkind
    obtain rfl | rfl | rfl | rfl := hkind
    · rfl
    · rfl
    · rfl
    · rfl
  by_cases hshort : body.length < 256
  · have hcount : (UInt8.ofNat body.length).toNat = body.length := by
      rw [UInt8.toNat_ofNat', Nat.mod_eq_of_lt hshort]
    refine ⟨[headerByte kind 5, UInt8.ofNat body.length], if_pos hshort, fun rest => ?_⟩
    exact (hfive _ _).trans (by rw [hcount]; rfl)
  · obtain ⟨b₀, b₁, hbytes, hcount⟩ := exists_beBytes_two (n := body.length) (by omega)
    refine ⟨[headerByte kind 6, b₀, b₁], ?_, fun rest => ?_⟩
    · rw [putString, if_neg hshort, Nat.min_eq_left hlength, hbytes]
    · exact (hsix _ _ _).trans (by rw [hcount]; rfl)

theorem length_le_putString (kind : UInt8) (body : Bytes) :
    body.length ≤ (putString kind body).length := by
  unfold putString
  split
  · rw [length_append]
    exact Nat.le_add_left _ _
  · rw [length_append]
    exact Nat.le_add_left _ _

/-! ## One element -/

section Element

variable {levels depth : ℕ} (hdepth : depth ≤ maxDepth)

include hdepth

theorem decodeAt_append {kind : UInt8} (header : Bytes) {body : Bytes} {e : DataElement}
    (tail : Bytes)
    (hsplit : splitHeader (header ++ (body ++ tail)) = .ok (kind, header.length, body.length))
    (hbody : decodeBody (decodeAt levels (depth + 1)) kind body = .ok e) :
    decodeAt (levels + 1) depth ((header ++ body) ++ tail) = .ok (e, (header ++ body).length) := by
  rw [append_assoc]
  obtain ⟨e', -, hshort⟩ | ⟨kind', h, n, hheader, -, hdecoded⟩ :=
    decodeAt_succ levels (header ++ (body ++ tail)) hdepth
  · have hlt := hshort _ _ _ hsplit
    rw [length_append, length_append] at hlt
    omega
  · rw [hsplit] at hheader
    cases hheader
    rw [hdecoded, drop_left, take_left, hbody, ok_bind, length_append]

theorem decodeAt_fixed {kind b : UInt8} {body : Bytes} {e : DataElement} (tail : Bytes)
    (hsplit : ∀ rest, splitHeader (b :: rest) = .ok (kind, 1, body.length))
    (hbody : decodeBody (decodeAt levels (depth + 1)) kind body = .ok e) :
    decodeAt (levels + 1) depth ((b :: body) ++ tail) = .ok (e, (b :: body).length) :=
  decodeAt_append hdepth [b] tail (hsplit _) hbody

theorem decodeAt_putUint (v : UInt64) (tail : Bytes) :
    decodeAt (levels + 1) depth (putUint v ++ tail) = .ok (.uint v, (putUint v).length) := by
  have hbody (width : ℕ) (h : v.toNat < 256 ^ width) :
      decodeBody (decodeAt levels (depth + 1)) typeUint (beBytes width v.toNat) =
        .ok (.uint v) := by
    change Except.ok (DataElement.uint (beUint (beBytes width v.toNat))) = _
    rw [beUint_beBytes h, UInt64.ofNat_toNat]
  have hlt : v.toNat < 2 ^ 64 := v.toNat_lt
  unfold putUint
  split
  · exact decodeAt_fixed hdepth tail (fun _ => rfl) (hbody 1 (by omega))
  · split
    · exact decodeAt_fixed hdepth tail (fun _ => rfl) (hbody 2 (by omega))
    · split
      · exact decodeAt_fixed hdepth tail (fun _ => rfl) (hbody 4 (by omega))
      · exact decodeAt_fixed hdepth tail (fun _ => rfl) (hbody 8 (by omega))

theorem decodeAt_putInt (v : Int64) (tail : Bytes) :
    decodeAt (levels + 1) depth (putInt v ++ tail) = .ok (.int v, (putInt v).length) := by
  have hbody (width : ℕ) (h : beInt (beBytes width v.toUInt64.toNat) = .ok v) :
      decodeBody (decodeAt levels (depth + 1)) typeInt (beBytes width v.toUInt64.toNat) =
        .ok (.int v) := by
    rw [decodeBody_int, h, ok_bind]
  unfold putInt
  split
  · rename_i hfits
    exact decodeAt_fixed hdepth tail (fun _ => rfl) (hbody 1 (beInt_beBytes (by omega) hfits))
  · split
    · rename_i hfits
      exact decodeAt_fixed hdepth tail (fun _ => rfl) (hbody 2 (beInt_beBytes (by omega) hfits))
    · split
      · rename_i hfits
        exact decodeAt_fixed hdepth tail (fun _ => rfl) (hbody 4 (beInt_beBytes (by omega) hfits))
      · exact decodeAt_fixed hdepth tail (fun _ => rfl) (hbody 8 (beInt_beBytes_eight v))

theorem decodeAt_putUuid (u : Uuid) (tail : Bytes) :
    decodeAt (levels + 1) depth (putUuid u ++ tail) = .ok (.uuid u, (putUuid u).length) := by
  obtain ⟨b, body, hput, hsplit, hbody⟩ := putUuid_eq u
  rw [hput]
  refine decodeAt_fixed hdepth tail hsplit ?_
  rw [decodeBody_uuid, hbody]

theorem decodeAt_putString {kind : UInt8} {body : Bytes} {e : DataElement} (tail : Bytes)
    (hkind : kind ∈ [typeText, typeUrl, typeSequence, typeAlternative])
    (hlength : body.length ≤ 65535)
    (hbody : decodeBody (decodeAt levels (depth + 1)) kind body = .ok e) :
    decodeAt (levels + 1) depth (putString kind body ++ tail) =
      .ok (e, (putString kind body).length) := by
  obtain ⟨header, hput, hsplit⟩ := putString_eq hkind hlength
  rw [hput]
  exact decodeAt_append hdepth header tail (hsplit _) hbody

end Element

/-! ## Every element -/

/-- An item that is decoded at the front of a body is taken off it. -/
theorem decodeItems_cons {decode : Bytes → Result (DataElement × ℕ)} {turns : ℕ}
    {bytes rest : Bytes} {item : DataElement} {items : List DataElement}
    (hempty : decode [] ≠ .ok (item, 0)) (hitem : ∀ tail, decode (bytes ++ tail) =
      .ok (item, bytes.length)) (hturns : (bytes ++ rest).length ≤ turns)
    (hrest : ∀ left, rest.length ≤ left → decodeItems decode left rest = .ok items) :
    decodeItems decode turns (bytes ++ rest) = .ok (item :: items) := by
  have hbytes : bytes ≠ [] := by
    rintro rfl
    exact hempty (hitem [])
  have hpos := length_pos_of_ne_nil hbytes
  rw [length_append] at hturns
  obtain ⟨turns, rfl⟩ : ∃ turns', turns = turns' + 1 := ⟨turns - 1, by omega⟩
  rw [decodeItems_of_ok (append_ne_nil_of_left_ne_nil hbytes rest) (hitem rest)
    (by rw [length_append]; omega), drop_left, hrest turns (by omega), ok_bind]

theorem decodeAt_nil (levels depth : ℕ) (e : DataElement) (used : ℕ) :
    decodeAt levels depth [] ≠ .ok (e, used) := by
  intro h
  cases levels with
  | zero => cases h
  | succ levels =>
    rw [decodeAt] at h
    split at h
    · cases h
    · cases h

mutual

/-- **An element comes back from its bytes**, whatever follows them. -/
theorem decodeAt_encode (e : DataElement) {levels depth : ℕ} (tail : Bytes) (hfits : e.Fits)
    (hdepth : e.nesting + depth ≤ maxDepth) (hlevels : e.nesting ≤ levels) :
    decodeAt (levels + 1) depth (e.encode ++ tail) = .ok (e.canonical, e.encode.length) := by
  have hdepth' : depth ≤ maxDepth := by omega
  cases e with
  | nil => exact decodeAt_fixed hdepth' tail (fun _ => rfl) rfl
  | uint v => exact decodeAt_putUint hdepth' v tail
  | uint16 v =>
    refine decodeAt_fixed hdepth' tail (fun _ => rfl) ?_
    change Except.ok (DataElement.uint (beUint (beBytes 2 v.toNat))) = _
    rw [beUint_beBytes v.toNat_lt, ← UInt16.toNat_toUInt64, UInt64.ofNat_toNat]
    rfl
  | uint32 v =>
    refine decodeAt_fixed hdepth' tail (fun _ => rfl) ?_
    change Except.ok (DataElement.uint (beUint (beBytes 4 v.toNat))) = _
    rw [beUint_beBytes v.toNat_lt, ← UInt32.toNat_toUInt64, UInt64.ofNat_toNat]
    rfl
  | int v => exact decodeAt_putInt hdepth' v tail
  | uuid u => exact decodeAt_putUuid hdepth' u tail
  | text s =>
    refine decodeAt_putString hdepth' tail (by decide) hfits ?_
    change Except.ok (DataElement.text (fromUtf8Lossy (utf8 s))) = _
    rw [fromUtf8Lossy_utf8]
    rfl
  | url s =>
    refine decodeAt_putString hdepth' tail (by decide) hfits ?_
    change Except.ok (DataElement.url (fromUtf8Lossy (utf8 s))) = _
    rw [fromUtf8Lossy_utf8]
    rfl
  | bool b =>
    refine @decodeAt_fixed _ _ hdepth' _ _ [if b then 1 else 0] _ tail (fun _ => rfl) ?_
    cases b with
    | false | true => rfl
  | sequence items =>
    refine decodeAt_putString hdepth' tail (by decide) hfits.1 ?_
    rw [decodeBody_sequence, decodeItems_encodeAll items hfits.2 hdepth hlevels le_rfl, ok_bind]
    rfl
  | alternative items =>
    refine decodeAt_putString hdepth' tail (by decide) hfits.1 ?_
    rw [decodeBody_alternative, decodeItems_encodeAll items hfits.2 hdepth hlevels le_rfl,
      ok_bind]
    rfl

/-- The items of a container come back from its body. -/
theorem decodeItems_encodeAll (items : List DataElement) {levels depth turns : ℕ}
    (hfits : DataElement.FitsItems items)
    (hdepth : DataElement.nestingItems items + depth ≤ maxDepth)
    (hlevels : DataElement.nestingItems items ≤ levels)
    (hturns : (DataElement.encodeAll items).length ≤ turns) :
    decodeItems (decodeAt levels (depth + 1)) turns (DataElement.encodeAll items) =
      .ok (DataElement.canonicalItems items) := by
  cases items with
  | nil => exact decodeItems_nil _
  | cons item items =>
    rw [DataElement.nestingItems] at hdepth hlevels
    obtain ⟨hitem, hitems⟩ := hfits
    obtain ⟨levels, rfl⟩ : ∃ levels', levels = levels' + 1 := ⟨levels - 1, by omega⟩
    exact decodeItems_cons (decodeAt_nil _ _ _ _)
      (fun tail => decodeAt_encode item tail hitem (by omega) (by omega)) hturns
      (fun left hleft => decodeItems_encodeAll items hitems (by omega) (by omega) hleft)

end

/-- **Decoding an encoded element** takes exactly its bytes and gives its
canonical form. -/
theorem decode_encode (e : DataElement) (tail : Bytes) (hfits : e.Fits)
    (hnesting : e.nesting ≤ maxDepth) :
    DataElement.decode (e.encode ++ tail) = .ok (e.canonical, e.encode.length) :=
  decodeAt_encode e tail hfits hnesting (Nat.le_succ_of_le hnesting)

end Castaway.Sdp
