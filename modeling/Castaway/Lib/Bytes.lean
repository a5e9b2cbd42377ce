import Mathlib.Algebra.Order.Ring.Nat
import Mathlib.Data.List.Basic

/-!
# Bytes and fixed-width integers

A byte string is a list of bytes.  `leBytes w n` is the `w`-byte little-endian
form of `n` and `leNat` reads one back; the big-endian pair is the reverse of
it.  Writing truncates to the width, as a cast to a machine integer does, so
the round trip `leNat_leBytes` holds below `256 ^ w`.
-/

namespace Castaway

open List

abbrev Bytes := List UInt8

/-! ## Little-endian -/

/-- The `w` low bytes of `n`, least significant first. -/
def leBytes : ℕ → ℕ → Bytes
  | 0, _ => []
  | w + 1, n => UInt8.ofNat n :: leBytes w (n / 256)

/-- The number a little-endian byte string stands for. -/
def leNat : Bytes → ℕ
  | [] => 0
  | b :: rest => b.toNat + 256 * leNat rest

@[simp] theorem length_leBytes (w n : ℕ) : (leBytes w n).length = w := by
  induction w generalizing n with
  | zero => rfl
  | succ w ih => simp [leBytes, ih]

theorem leNat_leBytes_mod (w n : ℕ) : leNat (leBytes w n) = n % 256 ^ w := by
  induction w generalizing n with
  | zero => simp [leBytes, leNat, Nat.mod_one]
  | succ w ih =>
    have hlow : (UInt8.ofNat n).toNat = n % 256 := UInt8.toNat_ofNat'
    rw [leBytes, leNat, ih, hlow, Nat.pow_succ', Nat.mod_mul]

theorem leNat_leBytes {w n : ℕ} (h : n < 256 ^ w) : leNat (leBytes w n) = n := by
  rw [leNat_leBytes_mod, Nat.mod_eq_of_lt h]

theorem leNat_lt (bs : Bytes) : leNat bs < 256 ^ bs.length := by
  induction bs with
  | nil => simp [leNat]
  | cons b rest ih =>
    have hb : b.toNat < 256 := b.toNat_lt
    simp only [leNat, length_cons, Nat.pow_succ']
    omega

theorem leBytes_leNat (bs : Bytes) : leBytes bs.length (leNat bs) = bs := by
  induction bs with
  | nil => rfl
  | cons b rest ih =>
    have hb : b.toNat < 256 := b.toNat_lt
    have hlow : UInt8.ofNat (leNat (b :: rest)) = b := by
      apply UInt8.toNat_inj.mp
      rw [UInt8.toNat_ofNat', leNat]
      omega
    have hrest : leNat (b :: rest) / 256 = leNat rest := by
      rw [leNat]
      omega
    rw [length_cons, leBytes, hlow, hrest, ih]

/-! ## Big-endian -/

/-- The `w` low bytes of `n`, most significant first. -/
def beBytes (w n : ℕ) : Bytes := (leBytes w n).reverse

/-- The number a big-endian byte string stands for. -/
def beNat (bs : Bytes) : ℕ := leNat bs.reverse

@[simp] theorem length_beBytes (w n : ℕ) : (beBytes w n).length = w := by simp [beBytes]

theorem beNat_beBytes {w n : ℕ} (h : n < 256 ^ w) : beNat (beBytes w n) = n := by
  rw [beNat, beBytes, reverse_reverse, leNat_leBytes h]

theorem beNat_lt (bs : Bytes) : beNat bs < 256 ^ bs.length := by
  simpa [beNat] using leNat_lt bs.reverse

theorem beBytes_beNat {w : ℕ} {bs : Bytes} (h : bs.length = w) : beBytes w (beNat bs) = bs := by
  have hreverse := leBytes_leNat bs.reverse
  rw [length_reverse, h] at hreverse
  rw [beBytes, beNat, hreverse, reverse_reverse]

theorem beNat_append_singleton (bs : Bytes) (b : UInt8) :
    beNat (bs ++ [b]) = beNat bs * 256 + b.toNat := by
  rw [beNat, reverse_append, reverse_singleton, singleton_append, leNat, beNat]
  omega

theorem toNat_ofNat_beNat_two {bs : Bytes} (h : bs.length = 2) :
    (UInt16.ofNat (beNat bs)).toNat = beNat bs := by
  have hlt : beNat bs < 65536 := by simpa [h] using beNat_lt bs
  rw [UInt16.toNat_ofNat', Nat.mod_eq_of_lt hlt]

theorem toNat_ofNat_beNat_four {bs : Bytes} (h : bs.length = 4) :
    (UInt32.ofNat (beNat bs)).toNat = beNat bs := by
  have hlt : beNat bs < 4294967296 := by simpa [h] using beNat_lt bs
  rw [UInt32.toNat_ofNat', Nat.mod_eq_of_lt hlt]

/-- The two bytes of a 16-bit field, for parsers that match on them. -/
theorem exists_beBytes_two {n : ℕ} (h : n < 65536) :
    ∃ b₀ b₁, beBytes 2 n = [b₀, b₁] ∧ beNat [b₀, b₁] = n := by
  refine ⟨_, _, rfl, ?_⟩
  change beNat (beBytes 2 n) = n
  exact beNat_beBytes (by simpa using h)

/-- The four bytes of a 32-bit field, for parsers that match on them. -/
theorem exists_beBytes_four {n : ℕ} (h : n < 4294967296) :
    ∃ b₀ b₁ b₂ b₃, beBytes 4 n = [b₀, b₁, b₂, b₃] ∧ beNat [b₀, b₁, b₂, b₃] = n := by
  refine ⟨_, _, _, _, rfl, ?_⟩
  change beNat (beBytes 4 n) = n
  exact beNat_beBytes (by simpa using h)

/-! ## Sixteen bits

The two-byte forms are spelled out: parsers match on the two bytes. -/

/-- The low byte of a 16-bit integer. -/
def loByte (x : UInt16) : UInt8 := UInt8.ofNat x.toNat

/-- The high byte of a 16-bit integer. -/
def hiByte (x : UInt16) : UInt8 := UInt8.ofNat (x.toNat / 256)

/-- The little-endian bytes of a 16-bit integer. -/
def putU16Le (x : UInt16) : Bytes := [loByte x, hiByte x]

/-- The 16-bit integer two little-endian bytes stand for. -/
def getU16Le (lo hi : UInt8) : UInt16 := UInt16.ofNat (lo.toNat + 256 * hi.toNat)

/-- The big-endian bytes of a 16-bit integer. -/
def putU16Be (x : UInt16) : Bytes := [hiByte x, loByte x]

/-- The 16-bit integer two big-endian bytes stand for. -/
def getU16Be (hi lo : UInt8) : UInt16 := getU16Le lo hi

@[simp] theorem length_putU16Le (x : UInt16) : (putU16Le x).length = 2 := rfl

@[simp] theorem length_putU16Be (x : UInt16) : (putU16Be x).length = 2 := rfl

@[simp] theorem getU16Le_bytes (x : UInt16) : getU16Le (loByte x) (hiByte x) = x := by
  apply UInt16.toNat_inj.mp
  have h : x.toNat < 65536 := x.toNat_lt
  simp only [getU16Le, loByte, hiByte, UInt8.toNat_ofNat', UInt16.toNat_ofNat']
  omega

@[simp] theorem getU16Be_bytes (x : UInt16) : getU16Be (hiByte x) (loByte x) = x :=
  getU16Le_bytes x

theorem putU16Le_getU16Le (lo hi : UInt8) : putU16Le (getU16Le lo hi) = [lo, hi] := by
  have hlo : lo.toNat < 256 := lo.toNat_lt
  have hhi : hi.toNat < 256 := hi.toNat_lt
  have hvalue : (getU16Le lo hi).toNat = lo.toNat + 256 * hi.toNat := by
    rw [getU16Le, UInt16.toNat_ofNat', Nat.mod_eq_of_lt (by omega)]
  have hlow : loByte (getU16Le lo hi) = lo := by
    apply UInt8.toNat_inj.mp
    rw [loByte, hvalue, UInt8.toNat_ofNat']
    omega
  have hhigh : hiByte (getU16Le lo hi) = hi := by
    apply UInt8.toNat_inj.mp
    rw [hiByte, hvalue, UInt8.toNat_ofNat']
    omega
  rw [putU16Le, hlow, hhigh]

theorem putU16Be_getU16Be (hi lo : UInt8) : putU16Be (getU16Be hi lo) = [hi, lo] :=
  congrArg List.reverse (putU16Le_getU16Le lo hi)

/-! ## Ranges -/

/-- The bytes from `first` up to `last`, if the string has them. -/
def rangeAt (bs : Bytes) (first last : ℕ) : Option Bytes :=
  if first ≤ last ∧ last ≤ bs.length then some ((bs.drop first).take (last - first)) else none

theorem rangeAt_append {front mid rest : Bytes} {first last : ℕ} (hfirst : front.length = first)
    (hlast : first + mid.length = last) : rangeAt (front ++ mid ++ rest) first last = some mid := by
  have hlength : mid.length = last - first := by omega
  have hbounds : first ≤ last ∧ last ≤ (front ++ mid ++ rest).length := by
    simp only [length_append]
    omega
  rw [rangeAt, if_pos hbounds, append_assoc, ← hfirst, drop_left, hfirst, ← hlength,
    take_left]

theorem rangeAt_zero_append {mid rest : Bytes} {last : ℕ} (hlast : mid.length = last) :
    rangeAt (mid ++ rest) 0 last = some mid := by
  have h := @rangeAt_append [] mid rest 0 last rfl (by omega)
  simpa using h

end Castaway
