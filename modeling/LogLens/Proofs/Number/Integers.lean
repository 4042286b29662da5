/-
Integers of 64 bits as binary numbers.

The nearest binary number to an integer that 64 bits hold is finite: the exponent it is rounded with
follows from the size of the integer, and with that exponent the rounded quotient has 54 bits.
-/
import Mathlib
import LogLens.Number.Binary64

namespace LogLens
namespace Binary64

theorem roundQuotient_le (num den : Nat) : roundQuotient num den ≤ num / den + 1 := by
  unfold roundQuotient
  dsimp only
  split_ifs <;> omega

/-- The exponent of an integer puts its first bit at one of two places. -/
theorem roundingExponent_one (n : Nat) : (n.log2 : Int) - 53 ≤ roundingExponent n 1 ∧
    roundingExponent n 1 ≤ (n.log2 : Int) - 52 := by
  unfold roundingExponent
  dsimp only
  have hone : Nat.log2 1 = 0 := by decide
  rw [hone]
  split_ifs <;> omega

theorem rankOfRatio_lt {n : Nat} (h : n.log2 ≤ 64) : (rankOfRatio n 1).val < infinityRank := by
  unfold rankOfRatio
  split
  · decide
  · obtain ⟨hlow, hhigh⟩ := roundingExponent_one n
    have hn : n < 2 ^ (n.log2 + 1) := Nat.lt_log2_self
    dsimp only
    generalize roundingExponent n 1 = e at hlow hhigh
    have hquotient : (if 0 ≤ e then roundQuotient n (1 <<< e.toNat)
        else roundQuotient (n <<< (-e).toNat) 1) ≤ 2 ^ 54 := by
      split
      · refine (roundQuotient_le _ _).trans (Nat.succ_le_of_lt (Nat.div_lt_of_lt_mul ?_))
        rw [Nat.one_shiftLeft, ← pow_add]
        exact hn.trans_le (Nat.pow_le_pow_right (by decide) (by omega))
      · refine (roundQuotient_le _ _).trans (Nat.succ_le_of_lt ?_)
        rw [Nat.div_one, Nat.shiftLeft_eq]
        calc n * 2 ^ (-e).toNat
            < 2 ^ (n.log2 + 1) * 2 ^ (-e).toNat := Nat.mul_lt_mul_of_pos_right hn (by positivity)
          _ = 2 ^ (n.log2 + 1 + (-e).toNat) := (pow_add ..).symm
          _ ≤ 2 ^ 54 := Nat.pow_le_pow_right (by decide) (by omega)
    have hexponent : (e + 1074).toNat * span ≤ 1086 * span :=
      Nat.mul_le_mul_right _ (by omega)
    have hroom : 1086 * span + 2 ^ 54 < infinityRank := by decide
    omega

/-- An integer that 64 bits hold is near a finite number. -/
theorem isFinite_ofInt {n : Int} (h : n.natAbs < 2 ^ 64) : (ofInt n).isFinite = true := by
  have hlog : n.natAbs.log2 ≤ 64 := by
    by_cases hn : n.natAbs = 0
    · rw [hn]
      decide
    · exact ((Nat.log2_lt hn).mpr h).le
  rw [ofInt, ofRatio, isFinite, decide_eq_true_eq]
  exact rankOfRatio_lt hlog

end Binary64
end LogLens
