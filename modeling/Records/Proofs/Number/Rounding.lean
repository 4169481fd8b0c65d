import Mathlib.Algebra.Ring.Nat
import Records.Number.Double

/-!
# Integers as doubles

An integer of magnitude below `2 ^ 53` is a double itself, and rounding takes no other integer to it
(`ofInt_ne_of_natAbs_lt`).  The rank of such a magnitude spells out its binary exponent and its
significand, and every magnitude from `2 ^ 53` on has a greater rank.
-/

set_option autoImplicit false

namespace Records.Double

/-- Over one, the logarithm of a ratio is that of its numerator. -/
theorem logRatio_one {n : Nat} (hn : n ≠ 0) : logRatio n 1 = n.log2 := by
  have hone : (1 : Nat).log2 = 0 := rfl
  have hreached : 2 ^ n.log2 ≤ n := Nat.log2_self_le hn
  simp [logRatio, hone, hreached]

/-- Over one there is nothing to round. -/
theorem roundQuotient_one (n : Nat) : roundQuotient n 1 = n := by
  simp [roundQuotient, Nat.mod_one]

/-- A quotient is not rounded below its integer part. -/
theorem div_le_roundQuotient (num den : Nat) : num / den ≤ roundQuotient num den := by
  simp only [roundQuotient]
  split <;> omega

/-- A number of at most 53 binary digits has its first digit at place 52 or lower. -/
theorem log2_le_of_lt {n : Nat} (h : n < 2 ^ 53) : n.log2 ≤ 52 := by
  by_cases hn : n = 0
  · simp [hn]
  · have hlog := (Nat.log2_lt hn).mpr h
    omega

/-- The significand of a small magnitude has 53 binary digits. -/
theorem significand_bounds {n : Nat} (hn : n ≠ 0) (h : n < 2 ^ 53) :
    2 ^ 52 ≤ n * 2 ^ (52 - n.log2) ∧ n * 2 ^ (52 - n.log2) < 2 ^ 53 := by
  have hlog := log2_le_of_lt h
  have hlower := Nat.log2_self_le hn
  have hupper := Nat.lt_log2_self (n := n)
  constructor
  · calc
      2 ^ 52 = 2 ^ n.log2 * 2 ^ (52 - n.log2) := by rw [← Nat.pow_add]; congr 1; omega
      _ ≤ n * 2 ^ (52 - n.log2) := Nat.mul_le_mul_right _ hlower
  · calc
      n * 2 ^ (52 - n.log2) < 2 ^ (n.log2 + 1) * 2 ^ (52 - n.log2) :=
        Nat.mul_lt_mul_of_pos_right hupper (Nat.two_pow_pos _)
      _ = 2 ^ 53 := by rw [← Nat.pow_add]; congr 1; omega

/-- The rank of a number of at most 53 binary digits, which is exact. -/
theorem rankOfRatio_of_lt {n : Nat} (hn : n ≠ 0) (h : n < 2 ^ 53) :
    rankOfRatio n 1 = (n.log2 + 1022) * 2 ^ 52 + n * 2 ^ (52 - n.log2) := by
  have hlog := log2_le_of_lt h
  have hexponent : max (-1074) (logRatio n 1 - 52) = (n.log2 : Int) - 52 := by
    rw [logRatio_one hn]
    omega
  have hshift : (-((n.log2 : Int) - 52)).toNat = 52 - n.log2 := by omega
  have hscale : ((n.log2 : Int) - 52).toNat = 0 := by omega
  have hbias : ((n.log2 : Int) - 52 + 1074).toNat = n.log2 + 1022 := by omega
  simp only [rankOfRatio, if_neg hn, hexponent, hshift, hscale, hbias]
  simp [roundQuotient_one]

/-- Numbers of more than 53 binary digits have ranks from the 54th binade on. -/
theorem le_rankOfRatio {n : Nat} (h : 2 ^ 53 ≤ n) : 1076 * 2 ^ 52 ≤ rankOfRatio n 1 := by
  have hn : n ≠ 0 := by omega
  have hlog : 53 ≤ n.log2 := (Nat.le_log2 hn).mpr h
  have hexponent : max (-1074) (logRatio n 1 - 52) = (n.log2 : Int) - 52 := by
    rw [logRatio_one hn]
    omega
  have hshift : (-((n.log2 : Int) - 52)).toNat = 0 := by omega
  have hscale : ((n.log2 : Int) - 52).toNat = n.log2 - 52 := by omega
  have hbias : ((n.log2 : Int) - 52 + 1074).toNat = n.log2 + 1022 := by omega
  have hsignificand : 2 ^ 52 ≤ roundQuotient n (2 ^ (n.log2 - 52)) := by
    refine Nat.le_trans ?_ (div_le_roundQuotient _ _)
    rw [Nat.le_div_iff_mul_le (Nat.two_pow_pos _), ← Nat.pow_add]
    have hsum : 52 + (n.log2 - 52) = n.log2 := by omega
    rw [hsum]
    exact Nat.log2_self_le hn
  have hrank : rankOfRatio n 1 =
      (n.log2 + 1022) * 2 ^ 52 + roundQuotient n (2 ^ (n.log2 - 52)) := by
    simp only [rankOfRatio, if_neg hn, hexponent, hshift, hscale, hbias]
    simp
  rw [hrank]
  omega

/-- Numbers of at most 53 binary digits have ranks below the 54th binade. -/
theorem rankOfRatio_lt {n : Nat} (h : n < 2 ^ 53) : rankOfRatio n 1 < 1076 * 2 ^ 52 := by
  by_cases hn : n = 0
  · simp [hn, rankOfRatio]
  · have hlog := log2_le_of_lt h
    have hbounds := significand_bounds hn h
    rw [rankOfRatio_of_lt hn h]
    omega

/-- A number other than zero has a positive rank. -/
theorem rankOfRatio_pos {n : Nat} (hn : n ≠ 0) : 0 < rankOfRatio n 1 := by
  by_cases h : n < 2 ^ 53
  · rw [rankOfRatio_of_lt hn h]
    omega
  · have hrank := le_rankOfRatio (n := n) (by omega)
    omega

/-- The rank of zero. -/
theorem rankOfRatio_zero : rankOfRatio 0 1 = 0 := rfl

/-- Two small magnitudes of one rank have one exponent and one significand. -/
theorem eq_of_rankOfRatio_eq {m n : Nat} (hm : m < 2 ^ 53) (hn : n < 2 ^ 53)
    (h : rankOfRatio m 1 = rankOfRatio n 1) : m = n := by
  by_cases hm0 : m = 0
  · rw [hm0, rankOfRatio_zero] at h
    have hpos := fun hn0 : n ≠ 0 => rankOfRatio_pos hn0
    omega
  by_cases hn0 : n = 0
  · rw [hn0, rankOfRatio_zero] at h
    have hpos := rankOfRatio_pos hm0
    omega
  have hmbounds := significand_bounds hm0 hm
  have hnbounds := significand_bounds hn0 hn
  rw [rankOfRatio_of_lt hm0 hm, rankOfRatio_of_lt hn0 hn] at h
  -- significands lie within one step of the exponent, so equal sums have equal exponents
  have hlog : m.log2 = n.log2 := by omega
  rw [hlog] at h
  have hsignificand : m * 2 ^ (52 - n.log2) = n * 2 ^ (52 - n.log2) := by omega
  exact Nat.eq_of_mul_eq_mul_right (Nat.two_pow_pos _) hsignificand

/-- The rank of a small magnitude is that of no other magnitude. -/
theorem min_rankOfRatio_ne {m n : Nat} (hm : m < 2 ^ 53) (hne : m ≠ n) :
    min (rankOfRatio m 1) greatestRank ≠ min (rankOfRatio n 1) greatestRank := by
  have hgreatest : 1076 * 2 ^ 52 ≤ greatestRank := by decide
  have hrank := rankOfRatio_lt hm
  by_cases hn : n < 2 ^ 53
  · have hother := rankOfRatio_lt hn
    have hranks : rankOfRatio m 1 ≠ rankOfRatio n 1 := fun h =>
      hne (eq_of_rankOfRatio_eq hm hn h)
    omega
  · have hother := le_rankOfRatio (n := n) (by omega)
    omega

/-- The key of the double nearest to an integer, by its sign and the rank of its size. -/
theorem key_ofInt (n : Int) :
    (ofInt n).key = if n < 0 then -((min (rankOfRatio n.natAbs 1) greatestRank : Nat) : Int)
      else ((min (rankOfRatio n.natAbs 1) greatestRank : Nat) : Int) := by
  simp only [key, ofInt, decide_eq_true_eq]

/-- The double nearest to an integer other than zero is not zero. -/
theorem rank_ofInt_pos {n : Int} (hn : n ≠ 0) :
    0 < min (rankOfRatio n.natAbs 1) greatestRank := by
  have hpos := rankOfRatio_pos (n := n.natAbs) (by omega)
  have hgreatest : 0 < greatestRank := by decide
  omega

/-- No integer rounds to a negative zero, so integers that compare equal as doubles round to the
same double. -/
theorem key_ofInt_eq_iff (a b : Int) : (ofInt a).key = (ofInt b).key ↔ ofInt a = ofInt b := by
  constructor
  · intro h
    rw [key_ofInt, key_ofInt] at h
    -- a negative integer has a rank above zero, hence a key below zero
    have ha : a < 0 → 0 < min (rankOfRatio a.natAbs 1) greatestRank := fun ha =>
      rank_ofInt_pos (by omega)
    have hb : b < 0 → 0 < min (rankOfRatio b.natAbs 1) greatestRank := fun hb =>
      rank_ofInt_pos (by omega)
    have hsign : decide (a < 0) = decide (b < 0) := by
      rw [decide_eq_decide]
      split at h <;> split at h <;> omega
    have hrank : min (rankOfRatio a.natAbs 1) greatestRank =
        min (rankOfRatio b.natAbs 1) greatestRank := by
      split at h <;> split at h <;> omega
    simp only [ofInt, hsign, hrank]
  · intro h
    rw [h]

/-- Rounding to a double keeps an integer of magnitude below `2 ^ 53` apart from every other. -/
theorem ofInt_ne_of_natAbs_lt {a b : Int} (hne : a ≠ b)
    (h : a.natAbs < 2 ^ 53 ∨ b.natAbs < 2 ^ 53) : ofInt a ≠ ofInt b := by
  intro heq
  have hsign : (a < 0) = (b < 0) := by simpa [ofInt] using congrArg negative heq
  have hrank := congrArg rank heq
  have hmagnitude : a.natAbs ≠ b.natAbs := by
    have hiff : a < 0 ↔ b < 0 := iff_of_eq hsign
    omega
  rcases h with ha | hb
  · exact min_rankOfRatio_ne ha hmagnitude hrank
  · exact min_rankOfRatio_ne hb hmagnitude.symm hrank.symm

end Records.Double
