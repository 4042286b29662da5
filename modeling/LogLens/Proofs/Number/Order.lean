/-
The order of binary numbers.

Numbers are in the order of their signed ranks, which for NaN means nothing.  Below `2 ^ 53` every
integer has a rank of its own: the rounded quotient is the integer itself, shifted so that it has 53
bits, and behind the ranks of all shorter integers.  So the numbers near such integers are in the
order of the integers (`compare?_ofInt`).
-/
import Mathlib
import LogLens.Number.Binary64

namespace LogLens
namespace Binary64

/-! ## Signed ranks -/

/-- The signed rank of a number; that of NaN does not matter. -/
def place (x : Binary64) : Int := x.key?.getD 0

theorem exists_key {x : Binary64} (h : x ≠ .nan) : ∃ a, x.key? = some a := by
  cases x with
  | nan => exact absurd rfl h
  | value negative rank => exact ⟨_, rfl⟩

theorem compare?_eq {x y : Binary64} (hx : x ≠ .nan) (hy : y ≠ .nan) :
    x.compare? y = some (compare x.place y.place) := by
  obtain ⟨a, ha⟩ := exists_key hx
  obtain ⟨b, hb⟩ := exists_key hy
  simp only [compare?, place, ha, hb, Option.getD_some]

theorem numLt_iff {x y : Binary64} (hx : x ≠ .nan) (hy : y ≠ .nan) :
    x.numLt y = true ↔ x.place < y.place := by
  rw [numLt, compare?_eq hx hy]
  simp [compare_lt_iff_lt]

theorem numEq_iff {x y : Binary64} (hx : x ≠ .nan) (hy : y ≠ .nan) :
    x.numEq y = true ↔ x.place = y.place := by
  rw [numEq, compare?_eq hx hy]
  simp

theorem ne_nan_of_numLt {x y : Binary64} (h : x.numLt y = true) : x ≠ .nan ∧ y ≠ .nan := by
  cases x <;> cases y <;> simp [numLt, compare?, key?] at h ⊢

theorem ne_nan_of_numEq {x y : Binary64} (h : x.numEq y = true) : x ≠ .nan ∧ y ≠ .nan := by
  cases x <;> cases y <;> simp [numEq, compare?, key?] at h ⊢

theorem place_lt_of_numLt {x y : Binary64} (h : x.numLt y = true) : x.place < y.place := by
  have hnan := ne_nan_of_numLt h
  exact (numLt_iff hnan.1 hnan.2).mp h

theorem place_eq_of_numEq {x y : Binary64} (h : x.numEq y = true) : x.place = y.place := by
  have hnan := ne_nan_of_numEq h
  exact (numEq_iff hnan.1 hnan.2).mp h

theorem numLe_iff {x y : Binary64} (hx : x ≠ .nan) (hy : y ≠ .nan) :
    x.numLe y = true ↔ x.place ≤ y.place := by
  rw [numLe, compare?_eq hx hy]
  simp [compare_lt_iff_lt, le_iff_lt_or_eq]

/-! ## Integers -/

theorem roundQuotient_one (n : Nat) : roundQuotient n 1 = n := by
  simp [roundQuotient, Nat.mod_one]

/-- With its first bit at place 52 the integer is a significand. -/
theorem significand_mem {n : Nat} (hn : n ≠ 0) (h : n.log2 ≤ 52) :
    span ≤ n * 2 ^ (52 - n.log2) ∧ n * 2 ^ (52 - n.log2) < 2 * span := by
  have hlow : 2 ^ n.log2 ≤ n := Nat.log2_self_le hn
  have hhigh : n < 2 ^ (n.log2 + 1) := Nat.lt_log2_self
  have hspan : 2 ^ n.log2 * 2 ^ (52 - n.log2) = span := by
    rw [← pow_add, Nat.add_sub_cancel' h]
    rfl
  constructor
  · calc span = 2 ^ n.log2 * 2 ^ (52 - n.log2) := hspan.symm
      _ ≤ n * 2 ^ (52 - n.log2) := Nat.mul_le_mul_right _ hlow
  · calc n * 2 ^ (52 - n.log2) < 2 ^ (n.log2 + 1) * 2 ^ (52 - n.log2) :=
        Nat.mul_lt_mul_of_pos_right hhigh (by positivity)
      _ = 2 * span := by rw [pow_succ', Nat.mul_assoc, hspan]

theorem roundingExponent_eq {n : Nat} (hn : n ≠ 0) (h : n.log2 ≤ 52) :
    roundingExponent n 1 = (n.log2 : Int) - 52 := by
  have hlow := (significand_mem hn h).1
  have hone : Nat.log2 1 = 0 := by decide
  have hquotient : (if 0 ≤ (n.log2 : Int) - 52 then n / (1 <<< ((n.log2 : Int) - 52).toNat)
      else (n <<< (-((n.log2 : Int) - 52)).toNat) / 1) = n * 2 ^ (52 - n.log2) := by
    split
    · have hlog : n.log2 = 52 := by omega
      simp [hlog]
    · have hshift : (-((n.log2 : Int) - 52)).toNat = 52 - n.log2 := by omega
      rw [hshift, Nat.div_one, Nat.shiftLeft_eq]
  rw [roundingExponent, hone, Int.ofNat_zero, Int.sub_zero]
  simp only [hquotient]
  rw [if_neg (Nat.not_lt.mpr hlow)]
  omega

theorem rankOfRatio_one {n : Nat} (hn : n ≠ 0) (h : n.log2 ≤ 52) :
    (rankOfRatio n 1).val = (n.log2 + 1022) * span + n * 2 ^ (52 - n.log2) := by
  have hhigh := (significand_mem hn h).2
  have hquotient : (if 0 ≤ (n.log2 : Int) - 52 then
      roundQuotient n (1 <<< ((n.log2 : Int) - 52).toNat)
      else roundQuotient (n <<< (-((n.log2 : Int) - 52)).toNat) 1) = n * 2 ^ (52 - n.log2) := by
    split
    · have hlog : n.log2 = 52 := by omega
      simp [hlog, roundQuotient_one]
    · have hshift : (-((n.log2 : Int) - 52)).toNat = 52 - n.log2 := by omega
      rw [hshift, roundQuotient_one, Nat.shiftLeft_eq]
  have hexponent : ((n.log2 : Int) - 52 + 1074).toNat = n.log2 + 1022 := by omega
  have hroom : (n.log2 + 1022) * span + n * 2 ^ (52 - n.log2) ≤ infinityRank := by
    have hblocks : (n.log2 + 1022) * span ≤ 1074 * span := Nat.mul_le_mul_right _ (by omega)
    rw [infinityRank]
    omega
  rw [rankOfRatio, if_neg hn]
  simp only [roundingExponent_eq hn h, hquotient, hexponent]
  exact Nat.min_eq_right hroom

theorem rankOfRatio_zero : (rankOfRatio 0 1).val = 0 := rfl

theorem log2_le_of_lt {n : Nat} (h : n < 2 ^ 53) : n.log2 ≤ 52 := by
  by_cases hn : n = 0
  · subst hn
    decide
  · exact Nat.le_of_lt_succ ((Nat.log2_lt hn).mpr h)

/-- A larger integer of 53 bits has a larger rank: it has more bits, or as many and a larger
significand. -/
theorem rankOfRatio_lt_of_lt {n m : Nat} (h : n < m) (hm : m < 2 ^ 53) :
    (rankOfRatio n 1).val < (rankOfRatio m 1).val := by
  have hm0 : m ≠ 0 := by omega
  have hlogm := log2_le_of_lt hm
  obtain ⟨hlowm, hhighm⟩ := significand_mem hm0 hlogm
  rw [rankOfRatio_one hm0 hlogm]
  by_cases hn : n = 0
  · rw [hn, rankOfRatio_zero]
    have hspan : 0 < span := by decide
    omega
  · have hlogn := log2_le_of_lt (h.trans hm)
    have hhighn := (significand_mem hn hlogn).2
    rw [rankOfRatio_one hn hlogn]
    have hlog : n.log2 ≤ m.log2 := by
      rw [Nat.log2_eq_log_two, Nat.log2_eq_log_two]
      exact Nat.log_mono_right h.le
    rcases Nat.lt_or_eq_of_le hlog with hlt | heq
    · have hblocks : (n.log2 + 1022) * span + span ≤ (m.log2 + 1022) * span := by
        rw [← Nat.succ_mul]
        exact Nat.mul_le_mul_right _ (by omega)
      omega
    · rw [heq]
      exact Nat.add_lt_add_left (Nat.mul_lt_mul_of_pos_right h (by positivity)) _

theorem place_ofInt (n : Int) : (ofInt n).place =
    if n < 0 then -((rankOfRatio n.natAbs 1).val : Int)
    else ((rankOfRatio n.natAbs 1).val : Int) := by
  by_cases h : n < 0 <;> simp [ofInt, ofRatio, place, key?, h]

theorem strictMonoOn_place_ofInt :
    StrictMonoOn (fun n => (ofInt n).place) {n : Int | n.natAbs < 2 ^ 53} := by
  intro a ha b hb hab
  have ha' : a.natAbs < 2 ^ 53 := ha
  have hb' : b.natAbs < 2 ^ 53 := hb
  simp only [place_ofInt]
  by_cases hneg : b < 0
  · have hrank := rankOfRatio_lt_of_lt (by omega : b.natAbs < a.natAbs) ha'
    rw [if_pos (by omega), if_pos hneg]
    omega
  · rw [if_neg hneg]
    split
    · have hrank := rankOfRatio_lt_of_lt (by omega : 0 < a.natAbs) ha'
      omega
    · have hrank := rankOfRatio_lt_of_lt (by omega : a.natAbs < b.natAbs) hb'
      omega

theorem ofInt_ne_nan (n : Int) : ofInt n ≠ .nan := by
  simp [ofInt, ofRatio]

/-- Numbers near integers of 53 bits compare as the integers do. -/
theorem compare?_ofInt {a b : Int} (ha : a.natAbs < 2 ^ 53) (hb : b.natAbs < 2 ^ 53) :
    (ofInt a).compare? (ofInt b) = some (compare a b) := by
  rw [compare?_eq (ofInt_ne_nan a) (ofInt_ne_nan b)]
  rcases lt_trichotomy a b with h | rfl | h
  · rw [compare_lt_iff_lt.mpr h, compare_lt_iff_lt.mpr (strictMonoOn_place_ofInt ha hb h)]
  · simp
  · rw [compare_gt_iff_gt.mpr h, compare_gt_iff_gt.mpr (strictMonoOn_place_ofInt hb ha h)]

theorem numLe_ofInt_iff {a b : Int} (ha : a.natAbs < 2 ^ 53) (hb : b.natAbs < 2 ^ 53) :
    (ofInt a).numLe (ofInt b) = true ↔ a ≤ b := by
  rw [numLe_iff (ofInt_ne_nan a) (ofInt_ne_nan b)]
  exact strictMonoOn_place_ofInt.le_iff_le ha hb

theorem numEq_ofInt_iff {a b : Int} (ha : a.natAbs < 2 ^ 53) (hb : b.natAbs < 2 ^ 53) :
    (ofInt a).numEq (ofInt b) = true ↔ a = b := by
  rw [numEq_iff (ofInt_ne_nan a) (ofInt_ne_nan b)]
  exact strictMonoOn_place_ofInt.injOn.eq_iff ha hb

end Binary64
end LogLens
