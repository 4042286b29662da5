/-
The edit distance counts single edits.

A single edit inserts, removes or replaces one character anywhere in a text.  The distance is the
length of the shortest sequence of such edits from one text to another (`isLeast_editDistance`):
edits made from left to right are one such sequence, and a single edit moves the distance to a third
text by at most one, so no sequence is shorter.  The bounded search therefore finds the length of
the shortest sequence, and says so exactly when it is within the bound.
-/
import LogLens.Proofs.Index.EditDistance

namespace LogLens
namespace Index

/-! ## Sequences of edits -/

inductive SingleEdit : List Char → List Char → Prop
  | insert (u v : List Char) (b : Char) : SingleEdit (u ++ v) (u ++ b :: v)
  | remove (u v : List Char) (a : Char) : SingleEdit (u ++ a :: v) (u ++ v)
  | replace (u v : List Char) (a b : Char) : SingleEdit (u ++ a :: v) (u ++ b :: v)

/-- `n` single edits, one after the other, lead from the first text to the second. -/
inductive EditSteps : List Char → List Char → Nat → Prop
  | refl (s : List Char) : EditSteps s s 0
  | step {s u t : List Char} {n : Nat} :
    SingleEdit s u → EditSteps u t n → EditSteps s t (n + 1)

theorem SingleEdit.cons {s t : List Char} (h : SingleEdit s t) (c : Char) :
    SingleEdit (c :: s) (c :: t) := by
  cases h with
  | insert u v b => exact insert (c :: u) v b
  | remove u v a => exact remove (c :: u) v a
  | replace u v a b => exact replace (c :: u) v a b

theorem EditSteps.cons {s t : List Char} {n : Nat} (h : EditSteps s t n) (c : Char) :
    EditSteps (c :: s) (c :: t) n := by
  induction h with
  | refl s => exact refl (c :: s)
  | step hedit _ ih => exact step (hedit.cons c) ih

/-- Edits made from left to right can be made one after the other. -/
theorem Edits.steps {s t : List Char} {n : Nat} (h : Edits s t n) : EditSteps s t n := by
  induction h with
  | done => exact .refl []
  | keep a _ ih => exact ih.cons a
  | @substitute a b s _ _ _ ih => exact .step (.replace [] s a b) (ih.cons b)
  | @delete a s _ _ _ ih => exact .step (.remove [] s a) ih
  | @insert b s _ _ _ ih => exact .step (.insert [] s b) (ih.cons b)

/-! ## One edit and the distance -/

/-- Starting from another first character costs one edit at most. -/
theorem Edits.replace_first {b : Char} {v t : List Char} {n : Nat} (h : Edits (b :: v) t n)
    (a : Char) : ∃ m ≤ n + 1, Edits (a :: v) t m := by
  generalize hsource : b :: v = source at h
  induction h with
  | done => exact absurd hsource (List.cons_ne_nil b v)
  | @keep c s t n h _ =>
    cases hsource
    exact ⟨n + 1, Nat.le_refl _, substitute a b h⟩
  | @substitute c d s t n h _ =>
    cases hsource
    exact ⟨n + 1, by omega, substitute a d h⟩
  | @delete c s t n h _ =>
    cases hsource
    exact ⟨n + 1, by omega, delete a h⟩
  | insert d _ ih =>
    obtain ⟨m, hm, h⟩ := ih hsource
    exact ⟨m + 1, by omega, insert d h⟩

/-- What costs one edit at most behind a common beginning costs one edit at most. -/
theorem Edits.behind {p v w t : List Char} {n : Nat} (h : Edits (p ++ v) t n)
    (hchange : ∀ {t' : List Char} {k : Nat}, Edits v t' k → ∃ m ≤ k + 1, Edits w t' m) :
    ∃ m ≤ n + 1, Edits (p ++ w) t m := by
  obtain ⟨t₁, t₂, k, m, rfl, hp, hv, rfl⟩ := h.split
  obtain ⟨m', hm', hw⟩ := hchange hv
  exact ⟨k + m', by omega, hp.append hw⟩

theorem Edits.of_singleEdit {s u t : List Char} {n : Nat} (hedit : SingleEdit s u)
    (h : Edits u t n) : ∃ m ≤ n + 1, Edits s t m := by
  cases hedit with
  | insert p v b =>
    refine h.behind fun hv => ?_
    obtain ⟨m, hm, hv'⟩ := hv.symm.drop_goal
    exact ⟨m, hm, hv'.symm⟩
  | remove p v a => exact h.behind fun {_ k} hv => ⟨k + 1, Nat.le_refl _, delete a hv⟩
  | replace p v a b => exact h.behind fun hv => hv.replace_first a

theorem Edits.refl (s : List Char) : Edits s s 0 := by
  induction s with
  | nil => exact done
  | cons c s ih => exact keep c ih

/-- A sequence of edits is no shorter than some edits made from left to right. -/
theorem EditSteps.exists_edits {s t : List Char} {n : Nat} (h : EditSteps s t n) :
    ∃ m ≤ n, Edits s t m := by
  induction h with
  | refl s =>
    exact ⟨0, Nat.le_refl 0, Edits.refl s⟩
  | step hedit _ ih =>
    obtain ⟨m, hm, h⟩ := ih
    obtain ⟨m', hm', h'⟩ := h.of_singleEdit hedit
    exact ⟨m', by omega, h'⟩

theorem isLeast_editDistance (s t : List Char) :
    IsLeast {n | EditSteps s t n} (editDistance s t) := by
  constructor
  · exact (edits_editDistance s t).steps
  · intro n h
    exact editDistance_le_iff.mpr (EditSteps.exists_edits h)

/-! ## The bounded search -/

/-- The search finds the length of the shortest sequence of edits when that is within the bound, and
nothing otherwise.  It reads and writes its two rows where they have entries. -/
theorem boundedDistance?_shortest (s t : String) (limit : Nat) :
    ∃ d, IsLeast {n | EditSteps s.toList t.toList n} d ∧
      (∀ found, boundedDistance? s t limit = some found ↔ found = d ∧ d ≤ limit) ∧
      (boundedDistance? s t limit = none ↔ limit < d) ∧
      distanceInRows s.toList t.toList limit = .ok (boundedDistance? s t limit) := by
  refine ⟨editDistance s.toList t.toList, isLeast_editDistance _ _, ?_, ?_, ?_⟩
  · intro found
    rw [boundedDistance?_eq, Option.ite_none_right_eq_some, Option.some.injEq]
    constructor
    · intro h
      exact ⟨h.2.symm, h.1⟩
    · intro h
      exact ⟨h.2, h.1.symm⟩
  · rw [boundedDistance?_eq, ite_eq_right_iff, imp_iff_not (Option.some_ne_none _), Nat.not_le]
  · rw [boundedDistance?_eq, distanceInRows_eq]

example : boundedDistance? "kitten" "sitting" 3 = some 3 ∧
    boundedDistance? "kitten" "sitting" 2 = none := by
  decide +kernel

end Index
end LogLens
