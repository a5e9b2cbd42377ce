import Castaway.AirPlay.Audio

/-!
# The sender's clock, without the wrap

A timestamp and a reference are 32 bits each, and their distance is read with
its sign (`serialDiff`).  An anchor's place on the sender's clock is below
`2 ^ 32` seconds (`ntpAsNanos_le`), so no step of `senderNsOf` saturates and
what it gives is the anchor moved by the signed distance (`toNat_senderNsOf`).
-/

namespace Castaway.AirPlay

/-- How far `timestamp` is ahead of `reference`, with its sign. -/
def serialDiff (timestamp reference : UInt32) : ℤ :=
  if (timestamp - reference).toNat < 2147483648 then (timestamp - reference).toNat
  else (timestamp - reference).toNat - 4294967296

theorem serialDiff_nonneg_iff {timestamp reference : UInt32} :
    0 ≤ serialDiff timestamp reference ↔ (timestamp - reference).toNat < 2147483648 := by
  have := (timestamp - reference).toNat_lt
  unfold serialDiff
  split <;> omega

/-- The code's test for being behind. -/
theorem half_lt_sub_iff {timestamp reference : UInt32} :
    4294967295 / 2 < timestamp - reference ↔ serialDiff timestamp reference < 0 := by
  rw [← not_le, serialDiff_nonneg_iff, UInt32.lt_iff_toNat_lt]
  change 2147483647 < _ ↔ _
  omega

theorem toI64_eq {x : ℤ} (hlow : -2 ^ 63 ≤ x) (hhigh : x < 2 ^ 63) : toI64 x = x := by
  unfold toI64
  omega

/-! ## The synchronised path -/

/-- The latest instant an anchor can stand for: `2 ^ 32` seconds. -/
def anchorLimit : ℕ := 4294967296000000000

theorem toNat_ntpAsNanos (raw : UInt64) : (ntpAsNanos raw).toNat =
      raw.toNat / 2 ^ 32 * 1000000000 + raw.toNat % 2 ^ 32 * 1000000000 / 2 ^ 32 := by
  have hraw := raw.toNat_lt
  have hsecs : (raw >>> 32).toNat = raw.toNat / 2 ^ 32 := by
    rw [UInt64.toNat_shiftRight]
    exact Nat.shiftRight_eq_div_pow _ _
  have hfrac : (raw &&& 0xFFFFFFFF : UInt64).toNat = raw.toNat % 2 ^ 32 := by
    rw [UInt64.toNat_and]
    exact Nat.and_two_pow_sub_one_eq_mod _ 32
  unfold ntpAsNanos
  dsimp only
  generalize (raw >>> 32) = secs at hsecs ⊢
  generalize (raw &&& 0xFFFFFFFF : UInt64) = frac at hfrac ⊢
  have hscaled : (frac * 1000000000).toNat = frac.toNat * 1000000000 := by
    rw [UInt64.toNat_mul]
    change _ * 1000000000 % _ = _
    omega
  have hbelow : ((frac * 1000000000) >>> 32).toNat = frac.toNat * 1000000000 / 2 ^ 32 := by
    rw [UInt64.toNat_shiftRight, hscaled]
    exact Nat.shiftRight_eq_div_pow _ _
  have hseconds : (secs * 1000000000).toNat = secs.toNat * 1000000000 := by
    rw [UInt64.toNat_mul]
    change _ * 1000000000 % _ = _
    omega
  rw [UInt64.toNat_add, hbelow, hseconds, hsecs, hfrac]
  omega

theorem ntpAsNanos_le (raw : UInt64) : (ntpAsNanos raw).toNat ≤ anchorLimit := by
  have hraw := raw.toNat_lt
  rw [toNat_ntpAsNanos, anchorLimit]
  omega

/-- A frame count in nanoseconds, rounded toward zero. -/
def framesToNs (frames : ℤ) (sampleRate : UInt32) : ℤ :=
  (frames * 1000000000).tdiv (max sampleRate 1).toNat

theorem rate_pos (sampleRate : UInt32) : 0 < (max sampleRate 1).toNat := by
  change 0 < (if sampleRate ≤ 1 then (1 : UInt32) else sampleRate).toNat
  split
  · decide
  · next hlarge =>
      rw [UInt32.le_iff_toNat_le] at hlarge
      exact (Nat.zero_le 1).trans_lt (Nat.lt_of_not_le hlarge)

theorem abs_framesToNs_le (frames : ℤ) (sampleRate : UInt32) :
    (framesToNs frames sampleRate).natAbs ≤ frames.natAbs * 1000000000 := by
  have h := Int.natAbs_tdiv_le_natAbs (frames * 1000000000) (max sampleRate 1).toNat
  rwa [Int.natAbs_mul] at h

theorem natAbs_serialDiff_le (timestamp reference : UInt32) :
    (serialDiff timestamp reference).natAbs ≤ 2147483648 := by
  have := (timestamp - reference).toNat_lt
  unfold serialDiff
  split <;> omega

/-- The two ways the source computes the signed distance agree. -/
theorem deltaFrames_eq (timestamp reference : UInt32) :
    (if 4294967295 / 2 < timestamp - reference then
      -((4294967295 - (timestamp - reference)).toNat : ℤ) - 1
    else ((timestamp - reference).toNat : ℤ)) = serialDiff timestamp reference := by
  have hlt := (timestamp - reference).toNat_lt
  have hback : (4294967295 - (timestamp - reference)).toNat =
      4294967295 - (timestamp - reference).toNat := by
    apply UInt32.toNat_sub_of_le
    rw [UInt32.le_iff_toNat_le]
    exact Nat.le_of_lt_succ hlt
  have hneg := @half_lt_sub_iff timestamp reference
  split
  · next h =>
      have hnotlow : ¬ (timestamp - reference).toNat < 2147483648 := by
        rw [← serialDiff_nonneg_iff, not_le]
        exact hneg.mp h
      rw [hback, serialDiff, if_neg hnotlow]
      omega
  · next h =>
      rw [serialDiff, if_pos]
      rw [← serialDiff_nonneg_iff, ← not_lt]
      exact fun hlow => h (hneg.mpr hlow)

theorem toNat_senderNsOf {anchor : SyncAnchor} (hanchor : anchor.senderNs.toNat ≤ anchorLimit)
    (rtp sampleRate : UInt32) : ((anchor.senderNsOf rtp sampleRate).toNat : ℤ) =
      max 0 (anchor.senderNs.toNat + framesToNs (serialDiff rtp anchor.rtp) sampleRate) := by
  have hdiff := natAbs_serialDiff_le rtp anchor.rtp
  have hmove := abs_framesToNs_le (serialDiff rtp anchor.rtp) sampleRate
  rw [anchorLimit] at hanchor
  have hscaled : toI64 (serialDiff rtp anchor.rtp * 1000000000) =
      serialDiff rtp anchor.rtp * 1000000000 := toI64_eq (by omega) (by omega)
  have hbase : toI64 anchor.senderNs.toNat = anchor.senderNs.toNat :=
    toI64_eq (by omega) (by omega)
  unfold SyncAnchor.senderNsOf
  dsimp only
  rw [deltaFrames_eq, hscaled, hbase]
  change (((UInt64.ofNat (max (toI64 (anchor.senderNs.toNat +
    framesToNs (serialDiff rtp anchor.rtp) sampleRate)) 0).toNat).toNat : ℕ) : ℤ) = _
  rw [toI64_eq (by omega) (by omega), UInt64.toNat_ofNat', Nat.mod_eq_of_lt (by omega)]
  omega

end Castaway.AirPlay
