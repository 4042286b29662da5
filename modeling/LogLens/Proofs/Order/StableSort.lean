/-
Sorting twice by stable sorts orders lexicographically.

A stable sort keeps the order of elements that it does not tell apart.  So the list comes out in
the order of the sort, and within a class of equal elements in whatever order it had before.
-/
import Mathlib

namespace LogLens
namespace Order

variable {α : Type}

theorem not_sublist_swap {l : List α} (h : l.Nodup) {a b : α} (hab : [a, b].Sublist l) :
    ¬ [b, a].Sublist l := by
  induction l with
  | nil => exact absurd hab (by simp)
  | cons c l ih =>
    obtain ⟨hc, hl⟩ := List.nodup_cons.mp h
    intro hba
    rcases List.sublist_cons_iff.mp hab with htail | ⟨r, heq, hr⟩
    · rcases List.sublist_cons_iff.mp hba with htail' | ⟨r', heq', hr'⟩
      · exact ih hl htail htail'
      · obtain ⟨rfl, rfl⟩ := List.cons.inj heq'
        exact hc (htail.subset (List.mem_cons_of_mem a List.mem_cons_self))
    · obtain ⟨rfl, rfl⟩ := List.cons.inj heq
      rcases List.sublist_cons_iff.mp hba with htail' | ⟨r', heq', hr'⟩
      · exact hc (htail'.subset (List.mem_cons_of_mem b List.mem_cons_self))
      · obtain ⟨rfl, rfl⟩ := List.cons.inj heq'
        exact hc (hr.subset List.mem_cons_self)

theorem sublist_pair_or_swap {l : List α} {a b : α} (ha : a ∈ l) (hb : b ∈ l) (hne : a ≠ b) :
    [a, b].Sublist l ∨ [b, a].Sublist l := by
  induction l with
  | nil => exact absurd ha List.not_mem_nil
  | cons c l ih =>
    rcases List.mem_cons.mp ha with rfl | ha'
    · have hb' : b ∈ l := (List.mem_cons.mp hb).resolve_left hne.symm
      exact Or.inl (List.Sublist.cons_cons a (List.singleton_sublist.mpr hb'))
    · rcases List.mem_cons.mp hb with rfl | hb'
      · exact Or.inr (List.Sublist.cons_cons b (List.singleton_sublist.mpr ha'))
      · exact (ih ha' hb').imp (List.Sublist.cons c) (List.Sublist.cons c)

/-- What a stable sort makes of a list that was in another order. -/
theorem pairwise_mergeSort_stable (le : α → α → Bool) {before : α → α → Prop}
    (htrans : ∀ a b c, le a b = true → le b c = true → le a c = true)
    (htotal : ∀ a b, (le a b || le b a) = true) {l : List α} (hnodup : l.Nodup)
    (hbefore : l.Pairwise before) :
    (l.mergeSort le).Pairwise fun a b => le a b = true ∧ (le b a = true → before a b) := by
  have hperm := List.mergeSort_perm l le
  have hnodup' : (l.mergeSort le).Nodup := hperm.nodup_iff.mpr hnodup
  have hsorted := List.pairwise_mergeSort htrans htotal l
  refine List.pairwise_iff_forall_sublist.mpr fun {a b} hab => ?_
  refine ⟨List.pairwise_iff_forall_sublist.mp hsorted hab, fun hba => ?_⟩
  have ha : a ∈ l := hperm.mem_iff.mp (hab.subset (by simp))
  have hb : b ∈ l := hperm.mem_iff.mp (hab.subset (by simp))
  have hne : a ≠ b := by
    have := (hab.nodup hnodup')
    simpa using this
  rcases sublist_pair_or_swap ha hb hne with h | h
  · exact List.pairwise_iff_forall_sublist.mp hbefore h
  · -- the sort would have kept the two the other way round
    exact absurd (List.pair_sublist_mergeSort htrans htotal hba h) (not_sublist_swap hnodup' hab)

/-- A list is determined by its members and a strict order. -/
theorem eq_of_perm_of_pairwise {before : α → α → Prop} (hasymm : ∀ a b, before a b → ¬ before b a)
    {l m : List α} (h : l.Perm m) (hl : l.Pairwise before) (hm : m.Pairwise before) : l = m :=
  h.eq_of_pairwise (fun a b _ _ hab hba => absurd hba (hasymm a b hab)) hl hm

end Order
end LogLens
