import Castaway.Lib.Bytes

/-!
# Bit vectors in octets

Bit `i` of an octet string is bit `i % 8`, counted from the low end, of octet
`i / 8`.  `setBits` lists the bits that are set in ascending order; marking a
bit past all of them appends it (`setBits_mark`), and growing by zero octets
changes nothing (`setBits_append_zeros`).
-/

namespace Castaway

open List

/-- Whether bit `i` is set; there are none past the end. -/
def bitAt (octets : Bytes) (i : ℕ) : Bool := (octets.getD (i / 8) 0).toNat.testBit (i % 8)

/-- The bits that are set, in ascending order. -/
def setBits (octets : Bytes) : List ℕ := (List.range (8 * octets.length)).filter (bitAt octets)

/-- Set bit `i`. -/
def markBit (octets : Bytes) (i : ℕ) : Bytes :=
  octets.set (i / 8) (octets.getD (i / 8) 0 ||| 1 <<< UInt8.ofNat (i % 8))

@[simp] theorem length_markBit (octets : Bytes) (i : ℕ) :
    (markBit octets i).length = octets.length := length_set

/-- Adding one index above the others to a filtered range appends it. -/
theorem filter_range_concat {p q : ℕ → Bool} {n k : ℕ} (hk : k < n)
    (hq : ∀ i < n, q i = (p i || i == k)) (hbelow : ∀ i < n, p i = true → i < k) :
    (List.range n).filter q = (List.range n).filter p ++ [k] := by
  induction n with
  | zero => exact absurd hk (Nat.not_lt_zero _)
  | succ n ih =>
    have hlast : p n = true → n < k := hbelow n (Nat.lt_succ_self n)
    rw [range_succ, filter_append, filter_append]
    by_cases heq : k = n
    · subst heq
      have hsame : (List.range k).filter q = (List.range k).filter p := by
        refine filter_congr fun i hi => ?_
        have hi' := mem_range.mp hi
        rw [hq i (Nat.lt_succ_of_lt hi')]
        simp [Nat.ne_of_lt hi']
      have hp : p k = false := by
        rw [Bool.eq_false_iff]
        exact fun h => absurd (hlast h) (Nat.lt_irrefl _)
      have hqk : q k = true := by rw [hq k (Nat.lt_succ_self k)]; simp
      simp [hsame, hp, hqk]
    · have hlt : k < n := by omega
      have hp : p n = false := by
        rw [Bool.eq_false_iff]
        exact fun h => absurd (hlast h) (by omega)
      have hqn : q n = false := by
        rw [hq n (Nat.lt_succ_self n), hp]
        simpa using Ne.symm heq
      rw [ih hlt (fun i hi => hq i (Nat.lt_succ_of_lt hi))
        (fun i hi => hbelow i (Nat.lt_succ_of_lt hi))]
      simp [hp, hqn]

theorem toNat_one_shiftLeft {k : ℕ} (hk : k < 8) :
    ((1 : UInt8) <<< UInt8.ofNat k).toNat = 2 ^ k := by
  have hall : ∀ k : Fin 8, ((1 : UInt8) <<< UInt8.ofNat k).toNat = 2 ^ (k : ℕ) := by decide
  exact hall ⟨k, hk⟩

theorem bitAt_markBit {octets : Bytes} {i : ℕ} (hi : i < 8 * octets.length) (j : ℕ) :
    bitAt (markBit octets i) j = (bitAt octets j || j == i) := by
  unfold bitAt markBit
  by_cases hoctet : i / 8 = j / 8
  · have hbound : j / 8 < octets.length := by omega
    rw [hoctet, getD_eq_getElem?_getD, getElem?_set_self hbound, Option.getD_some,
      UInt8.toNat_or, toNat_one_shiftLeft (Nat.mod_lt _ (by decide)), Nat.testBit_or,
      Nat.testBit_two_pow]
    congr 1
    rw [Bool.eq_iff_iff, decide_eq_true_iff, beq_iff_eq]
    omega
  · have hne : (j == i) = false := by
      rw [beq_eq_false_iff_ne]
      rintro rfl
      exact hoctet rfl
    rw [getD_eq_getElem?_getD, getElem?_set_ne hoctet, ← getD_eq_getElem?_getD, hne,
      Bool.or_false]

/-- **Marking a bit past all that are set appends it.** -/
theorem setBits_markBit {octets : Bytes} {i : ℕ} (hi : i < 8 * octets.length)
    (habove : ∀ j ∈ setBits octets, j < i) :
    setBits (markBit octets i) = setBits octets ++ [i] := by
  unfold setBits
  rw [length_markBit]
  refine filter_range_concat hi (fun j _ => bitAt_markBit hi j) ?_
  intro j hj hset
  exact habove j (mem_filter.mpr ⟨mem_range.mpr hj, hset⟩)

theorem setBits_append_zeros (octets : Bytes) (n : ℕ) :
    setBits (octets ++ .replicate n 0) = setBits octets := by
  have hsame : ∀ i < 8 * octets.length,
      bitAt (octets ++ .replicate n 0) i = bitAt octets i := by
    intro i hi
    unfold bitAt
    rw [getD_eq_getElem?_getD, getElem?_append_left (by omega),
      ← getD_eq_getElem?_getD]
  have hzero : ∀ i, 8 * octets.length ≤ i → bitAt (octets ++ .replicate n 0) i = false := by
    intro i hi
    unfold bitAt
    rw [getD_eq_getElem?_getD, getElem?_append_right (by omega),
      getElem?_replicate]
    split <;> simp
  unfold setBits
  rw [length_append, length_replicate, Nat.mul_add, range_add, filter_append]
  have hrest : ((List.range (8 * n)).map (8 * octets.length + ·)).filter
      (bitAt (octets ++ .replicate n 0)) = [] := by
    rw [filter_eq_nil_iff]
    intro i hi
    obtain ⟨j, -, rfl⟩ := mem_map.mp hi
    rw [hzero _ (Nat.le_add_right _ _)]
    simp
  rw [hrest, append_nil]
  exact filter_congr fun i hi => hsame i (mem_range.mp hi)

theorem setBits_zeros (n : ℕ) : setBits (.replicate n 0) = [] := by
  have h := setBits_append_zeros [] n
  rwa [nil_append] at h

/-! ## As a list -/

/-- The bits of an octet string, the low end of each octet first. -/
def bits (octets : Bytes) : List Bool :=
  octets.flatMap fun octet => (List.range 8).map octet.toNat.testBit

@[simp] theorem bits_cons (octet : UInt8) (octets : Bytes) :
    bits (octet :: octets) = (List.range 8).map octet.toNat.testBit ++ bits octets := rfl

theorem bits_append (first second : Bytes) : bits (first ++ second) = bits first ++ bits second :=
  flatMap_append

@[simp] theorem length_bits (octets : Bytes) : (bits octets).length = 8 * octets.length := by
  induction octets with
  | nil => rfl
  | cons octet octets ih =>
    rw [bits_cons, length_append, ih, length_map, length_range, length_cons]
    omega

/-- The bits in the list are those that `bitAt` reads. -/
theorem getElem?_bits (octets : Bytes) (i : ℕ) :
    (bits octets)[i]? = if i < 8 * octets.length then some (bitAt octets i) else none := by
  induction octets generalizing i with
  | nil => rfl
  | cons octet octets ih =>
    rw [bits_cons, length_cons]
    by_cases hi : i < 8
    · have hzero : i / 8 = 0 := by omega
      rw [getElem?_append_left (by simpa using hi), getElem?_map,
        getElem?_range hi, if_pos (by omega), bitAt, hzero, Nat.mod_eq_of_lt hi]
      rfl
    · have hdiv : i / 8 = (i - 8) / 8 + 1 := by omega
      have hmod : i % 8 = (i - 8) % 8 := by omega
      rw [getElem?_append_right (by simp; omega), length_map, length_range, ih,
        bitAt, bitAt, hdiv, hmod, getD_cons_succ]
      by_cases hin : i < 8 * (octets.length + 1)
      · rw [if_pos hin, if_pos (by omega)]
      · rw [if_neg hin, if_neg (by omega)]

theorem bits_injective {first second : Bytes} (h : bits first = bits second) : first = second := by
  have hlength : first.length = second.length := by
    have := congrArg List.length h
    rw [length_bits, length_bits] at this
    omega
  refine ext_getElem hlength fun i hfirst hsecond => ?_
  apply UInt8.toNat_inj.mp
  apply Nat.eq_of_testBit_eq
  intro k
  by_cases hk : k < 8
  · have hbit := congrArg (fun bits : List Bool => bits[8 * i + k]?) h
    have hdiv : (8 * i + k) / 8 = i := by omega
    have hmod : (8 * i + k) % 8 = k := by omega
    simp only [getElem?_bits, bitAt, hdiv, hmod] at hbit
    rw [if_pos (by omega), if_pos (by omega)] at hbit
    simpa [hfirst, hsecond] using hbit
  · have hbound : ∀ octet : UInt8, octet.toNat.testBit k = false := fun octet =>
      Nat.testBit_lt_two_pow (lt_of_lt_of_le octet.toNat_lt
        (Nat.pow_le_pow_right (by decide) (by omega)))
    rw [hbound, hbound]

end Castaway
