import Castaway.Lib.Bytes
import Mathlib.Data.Nat.Bitwise
import Mathlib.Tactic.Ring

/-!
# Bit streams

A bit stream has the high end of every field and of every octet first.
`beBits w n` is the field of `w` bits that holds `n`, and `ofBits` reads one
back (`ofBits_beBits`).  `unpack` is an octet string as a stream, and `pack`
fills a stream up with zeros to whole octets, so that what is packed begins with
what it came from (`unpack_pack`).
-/

namespace Castaway

open List

/-! ## Fields -/

/-- The `w` low bits of `n`, most significant first. -/
def beBits : ℕ → ℕ → List Bool
  | 0, _ => []
  | w + 1, n => n.testBit w :: beBits w n

/-- The number that a field stands for, after what was read of it before. -/
def ofBitsFrom (read : ℕ) (bits : List Bool) : ℕ :=
  bits.foldl (fun n bit => 2 * n + bit.toNat) read

def ofBits (bits : List Bool) : ℕ := ofBitsFrom 0 bits

@[simp] theorem length_beBits (w n : ℕ) : (beBits w n).length = w := by
  induction w with
  | zero => rfl
  | succ w ih => rw [beBits, length_cons, ih]

theorem getElem?_beBits {w k : ℕ} (n : ℕ) (h : k < w) :
    (beBits w n)[k]? = some (n.testBit (w - 1 - k)) := by
  induction w generalizing k with
  | zero => exact absurd h (Nat.not_lt_zero k)
  | succ w ih =>
    cases k with
    | zero => rfl
    | succ k =>
      rw [beBits, getElem?_cons_succ, ih (Nat.lt_of_succ_lt_succ h)]
      congr 2
      omega

theorem ofBitsFrom_cons (read : ℕ) (bit : Bool) (bits : List Bool) :
    ofBitsFrom read (bit :: bits) = ofBitsFrom (2 * read + bit.toNat) bits := rfl

theorem ofBitsFrom_eq (read : ℕ) (bits : List Bool) :
    ofBitsFrom read bits = read * 2 ^ bits.length + ofBits bits := by
  induction bits generalizing read with
  | nil => simp [ofBits, ofBitsFrom]
  | cons bit bits ih =>
    rw [ofBits, ofBitsFrom_cons, ofBitsFrom_cons, ih, ih (2 * 0 + bit.toNat), length_cons,
      pow_succ]
    ring

theorem ofBits_cons (bit : Bool) (bits : List Bool) :
    ofBits (bit :: bits) = bit.toNat * 2 ^ bits.length + ofBits bits := by
  rw [ofBits, ofBitsFrom_cons, ofBitsFrom_eq, Nat.mul_zero, Nat.zero_add]

theorem ofBits_lt (bits : List Bool) : ofBits bits < 2 ^ bits.length := by
  induction bits with
  | nil => exact Nat.one_pos
  | cons bit bits ih =>
    have hbit : bit.toNat ≤ 1 := Bool.toNat_le bit
    have hhigh := Nat.mul_le_mul_right (2 ^ bits.length) hbit
    rw [ofBits_cons, length_cons, pow_succ]
    omega

theorem ofBits_beBits_mod (w n : ℕ) : ofBits (beBits w n) = n % 2 ^ w := by
  induction w with
  | zero => rw [pow_zero, Nat.mod_one]; rfl
  | succ w ih =>
    have hbit : (n.testBit w).toNat = n / 2 ^ w % 2 := by
      rw [Nat.toNat_testBit]
    rw [beBits, ofBits_cons, ih, length_beBits, hbit, pow_succ, Nat.mod_mul]
    ring

theorem ofBits_beBits {w n : ℕ} (h : n < 2 ^ w) : ofBits (beBits w n) = n := by
  rw [ofBits_beBits_mod, Nat.mod_eq_of_lt h]

theorem beBits_add (m k n : ℕ) : beBits (m + k) n = beBits m (n / 2 ^ k) ++ beBits k n := by
  induction m with
  | zero => rw [Nat.zero_add]; rfl
  | succ m ih =>
    rw [Nat.add_right_comm, beBits, ih, beBits, Nat.testBit_div_two_pow, cons_append,
      Nat.add_comm m k]

/-- A number whose bits are some of another's has the same field there. -/
theorem beBits_congr {w n m : ℕ} (h : ∀ i < w, n.testBit i = m.testBit i) :
    beBits w n = beBits w m := by
  induction w with
  | zero => rfl
  | succ w ih =>
    rw [beBits, beBits, h w (Nat.lt_succ_self w), ih fun i hi => h i (Nat.lt_succ_of_lt hi)]

theorem beBits_ofBits (bits : List Bool) : beBits bits.length (ofBits bits) = bits := by
  induction bits with
  | nil => rfl
  | cons bit bits ih =>
    have hlt := ofBits_lt bits
    rw [length_cons, beBits, ofBits_cons]
    have hhigh : (bit.toNat * 2 ^ bits.length + ofBits bits).testBit bits.length = bit := by
      rw [Nat.mul_comm, Nat.testBit_two_pow_mul_add _ hlt, if_neg (Nat.lt_irrefl _), Nat.sub_self]
      cases bit <;> rfl
    have hlow : beBits bits.length (bit.toNat * 2 ^ bits.length + ofBits bits) =
        beBits bits.length (ofBits bits) := by
      refine beBits_congr fun i hi => ?_
      rw [Nat.mul_comm, Nat.testBit_two_pow_mul_add _ hlt, if_pos hi]
    rw [hhigh, hlow, ih]

/-! ## Octets -/

def unpack (bytes : Bytes) : List Bool := bytes.flatMap fun byte => beBits 8 byte.toNat

@[simp] theorem unpack_nil : unpack [] = [] := rfl

@[simp] theorem unpack_cons (byte : UInt8) (bytes : Bytes) :
    unpack (byte :: bytes) = beBits 8 byte.toNat ++ unpack bytes := rfl

@[simp] theorem length_unpack (bytes : Bytes) : (unpack bytes).length = 8 * bytes.length := by
  induction bytes with
  | nil => rfl
  | cons byte bytes ih =>
    rw [unpack_cons, length_append, length_beBits, ih, length_cons]
    omega

theorem drop_unpack (bytes : Bytes) (k : ℕ) :
    (unpack bytes).drop (8 * k) = unpack (bytes.drop k) := by
  induction k generalizing bytes with
  | zero => rfl
  | succ k ih =>
    cases bytes with
    | nil => simp
    | cons byte bytes =>
      have hoctet : (beBits 8 byte.toNat ++ unpack bytes).drop 8 = unpack bytes :=
        drop_left' (length_beBits 8 _)
      rw [unpack_cons, Nat.mul_succ, Nat.add_comm, ← drop_drop, hoctet, ih,
        drop_succ_cons]

theorem getElem?_unpack (bytes : Bytes) (i : ℕ) :
    (unpack bytes)[i]? = bytes[i / 8]?.map fun byte => byte.toNat.testBit (7 - i % 8) := by
  have hsplit : i = 8 * (i / 8) + i % 8 := by omega
  have hmod : i % 8 < 8 := Nat.mod_lt _ (by decide)
  conv_lhs => rw [hsplit]
  have hhead : bytes[i / 8]? = (bytes.drop (i / 8))[0]? := by
    rw [getElem?_drop, Nat.add_zero]
  rw [← getElem?_drop, drop_unpack, hhead]
  cases hrest : bytes.drop (i / 8) with
  | nil => simp
  | cons byte rest =>
    rw [unpack_cons, getElem?_append_left (by simpa using hmod)]
    exact getElem?_beBits _ hmod

theorem unpack_injective {first second : Bytes} (h : unpack first = unpack second) :
    first = second := by
  induction first generalizing second with
  | nil =>
    have hlength := congrArg List.length h
    rw [length_unpack, length_unpack, length_nil] at hlength
    exact (length_eq_zero_iff.mp (by omega)).symm
  | cons byte bytes ih =>
    cases second with
    | nil => simp [beBits] at h
    | cons byte' bytes' =>
      rw [unpack_cons, unpack_cons] at h
      obtain ⟨hbyte, hrest⟩ := append_inj h (by simp)
      have hvalue := congrArg ofBits hbyte
      rw [ofBits_beBits byte.toNat_lt, ofBits_beBits byte'.toNat_lt] at hvalue
      rw [UInt8.toNat_inj.mp hvalue, ih hrest]

/-! ## Packing -/

/-- The first `n` octets of a stream that zeros follow. -/
def packInto : ℕ → List Bool → Bytes
  | 0, _ => []
  | n + 1, bits =>
    UInt8.ofNat (ofBits (bits.take 8 ++ .replicate (8 - bits.length) false)) ::
      packInto n (bits.drop 8)

/-- A stream, filled up with zeros to whole octets. -/
def pack (bits : List Bool) : Bytes := packInto ((bits.length + 7) / 8) bits

@[simp] theorem length_packInto (n : ℕ) (bits : List Bool) : (packInto n bits).length = n := by
  induction n generalizing bits with
  | zero => rfl
  | succ n ih => rw [packInto, length_cons, ih]

theorem unpack_packInto {n : ℕ} {bits : List Bool} (h : bits.length ≤ 8 * n) :
    unpack (packInto n bits) = bits ++ .replicate (8 * n - bits.length) false := by
  induction n generalizing bits with
  | zero =>
    rw [length_eq_zero_iff.mp (Nat.le_zero.mp h)]
    rfl
  | succ n ih =>
    let octet := bits.take 8 ++ List.replicate (8 - bits.length) false
    have hoctet : octet.length = 8 := by simp [octet]; omega
    have hvalue : (UInt8.ofNat (ofBits octet)).toNat = ofBits octet := by
      rw [UInt8.toNat_ofNat']
      exact Nat.mod_eq_of_lt (hoctet ▸ ofBits_lt octet)
    have hbits : beBits 8 (UInt8.ofNat (ofBits octet)).toNat = octet := by
      rw [hvalue]
      exact hoctet ▸ beBits_ofBits octet
    have hrest : (bits.drop 8).length ≤ 8 * n := by rw [length_drop]; omega
    rw [packInto, unpack_cons, hbits, ih hrest, length_drop]
    rcases Nat.le_total 8 bits.length with hlong | hshort
    · have hnone : 8 - bits.length = 0 := by omega
      have hcount : 8 * n - (bits.length - 8) = 8 * (n + 1) - bits.length := by omega
      simp only [octet, hnone, hcount, replicate_zero, append_nil]
      rw [← append_assoc, take_append_drop]
    · have hcount : 8 - bits.length + (8 * n - (bits.length - 8)) =
          8 * (n + 1) - bits.length := by omega
      simp only [octet]
      rw [take_of_length_le hshort, drop_eq_nil_of_le hshort, nil_append,
        append_assoc, replicate_append_replicate, hcount]

theorem unpack_pack (bits : List Bool) : ∃ k < 8,
    unpack (pack bits) = bits ++ .replicate k false ∧ 8 * (pack bits).length = bits.length + k := by
  refine ⟨8 * ((bits.length + 7) / 8) - bits.length, by omega, unpack_packInto (by omega), ?_⟩
  rw [pack, length_packInto]
  omega

end Castaway
