/-
Instants are in a linear order: that of their seconds, and within a second of their nanoseconds.
-/
import Mathlib
import LogLens.Time.Instant

namespace LogLens
namespace Instant

theorem le_def {a b : Instant} :
    a ≤ b ↔ a.seconds < b.seconds ∨ a.seconds = b.seconds ∧ a.nanos ≤ b.nanos :=
  Iff.rfl

theorem lt_def {a b : Instant} :
    a < b ↔ a.seconds < b.seconds ∨ a.seconds = b.seconds ∧ a.nanos < b.nanos :=
  Iff.rfl

theorem eq_iff {a b : Instant} : a = b ↔ a.seconds = b.seconds ∧ a.nanos = b.nanos := by
  cases a
  cases b
  simp

instance : Min Instant := minOfLe

instance : Max Instant := maxOfLe

theorem compare_eq (a b : Instant) : Ord.compare a b = compareOfLessAndEq a b := by
  show (Ord.compare a.seconds b.seconds).then (Ord.compare a.nanos b.nanos) = _
  simp only [compareOfLessAndEq, lt_def, eq_iff]
  rcases lt_trichotomy a.seconds b.seconds with h | h | h
  · rw [compare_lt_iff_lt.mpr h, if_pos (Or.inl h)]
    rfl
  · rw [compare_eq_iff_eq.mpr h]
    rcases lt_trichotomy a.nanos b.nanos with h' | h' | h'
    · rw [compare_lt_iff_lt.mpr h', if_pos (Or.inr ⟨h, h'⟩)]
      rfl
    · rw [compare_eq_iff_eq.mpr h', if_neg (by omega), if_pos ⟨h, h'⟩]
      rfl
    · rw [compare_gt_iff_gt.mpr h', if_neg (by omega), if_neg (by omega)]
      rfl
  · rw [compare_gt_iff_gt.mpr h, if_neg (by omega), if_neg (by omega)]
    rfl

instance : LinearOrder Instant where
  le_refl a := Or.inr ⟨rfl, Nat.le_refl _⟩
  le_trans a b c := by
    simp only [le_def]
    omega
  lt_iff_le_not_ge a b := by
    simp only [le_def, lt_def]
    omega
  le_antisymm a b := by
    simp only [le_def, eq_iff]
    omega
  le_total a b := by
    simp only [le_def]
    omega
  toDecidableLE := fun a b => inferInstance
  toDecidableLT := fun a b => inferInstance
  toDecidableEq := fun a b => inferInstance
  compare_eq_compareOfLessAndEq := compare_eq

end Instant
end LogLens
