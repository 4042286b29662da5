/-
The sort as a whole.

A partition that leaves the pivot untested keeps both sides in their order.  Where nothing is less
than the pivot, the elements that the pivot is not less than all equal it, so they are in place as
they are.  However often the list is divided, what comes out is a rearrangement, and with a
comparison by keys it is the stable order.  Twenty elements or fewer are sorted by insertion, which
never breaks off.
-/
import LogLens.Proofs.Order.Runs

namespace LogLens
namespace StableSort

variable {α κ : Type} [LinearOrder κ] {less : α → α → Bool} {key : α → κ}
  {before : α → α → Prop}

/-! ## Partitions -/

/-- What a partition makes of a list. -/
structure Parted (goesLeft : α → Bool) (pivotLeft : Bool) (v : List α) (pivot : α)
    (left right : List α) : Prop where
  perm : (left ++ right).Perm v
  sublist_left : left.Sublist v
  sublist_right : right.Sublist v
  left : ∀ x ∈ left, goesLeft x = true ∨ pivotLeft = true ∧ x = pivot
  right : ∀ x ∈ right, goesLeft x = false ∨ pivotLeft = false ∧ x = pivot

theorem parted_partitionAt (goesLeft : α → Bool) (pivotLeft : Bool) (v : List α)
    (i : Fin v.length) :
    Parted goesLeft pivotLeft v (v.get i) (partitionAt goesLeft pivotLeft v i).1
      (partitionAt goesLeft pivotLeft v i).2 := by
  have hsides : ∀ (test : α × Nat → Bool), ((v.zipIdx.filter test).map (·.1)).Sublist v := by
    intro test
    have hsub := (List.filter_sublist (p := test) (l := v.zipIdx)).map (·.1)
    rwa [List.zipIdx_map_fst] at hsub
  have hpivot : ∀ e ∈ v.zipIdx, e.2 = i.val → e.1 = v.get i := by
    intro e he hi
    have hget := List.mem_zipIdx_iff_getElem?.mp he
    rw [hi, List.getElem?_eq_getElem i.isLt] at hget
    exact (Option.some.inj hget).symm
  rw [partitionAt, List.partition_eq_filter_filter]
  refine ⟨?_, hsides _, hsides _, fun x hx => ?_, fun x hx => ?_⟩
  · have hperm := (List.filter_append_perm
      (fun e : α × Nat => if e.2 = i.val then pivotLeft else goesLeft e.1) v.zipIdx).map (·.1)
    rwa [List.map_append, List.zipIdx_map_fst] at hperm
  · obtain ⟨e, he, rfl⟩ := List.mem_map.mp hx
    obtain ⟨hmem, htest⟩ := List.mem_filter.mp he
    split at htest
    next hi => exact .inr ⟨htest, hpivot e hmem hi⟩
    next => exact .inl htest
  · obtain ⟨e, he, rfl⟩ := List.mem_map.mp hx
    obtain ⟨hmem, htest⟩ := List.mem_filter.mp he
    simp only [Bool.not_eq_true', Function.comp_apply] at htest
    split at htest
    next hi => exact .inr ⟨htest, hpivot e hmem hi⟩
    next => exact .inl htest

/-! ## Quicksort -/

/-- No element is less than the ancestor. -/
def Above (less : α → α → Bool) (key : α → κ) (ancestor : Option α) (v : List α) : Prop :=
  ∀ p ∈ ancestor, ∀ x ∈ v, key p ≤ key x ∧ (less p x = true ↔ key p < key x)

theorem Above.mono {ancestor : Option α} {v w : List α} (h : Above less key ancestor v)
    (hsub : w ⊆ v) : Above less key ancestor w :=
  fun p hp x hx => h p hp x (hsub hx)

/-- Sorted sides of a partition, put together again. -/
theorem sides_sorted {c : Prop} {left right l r v : List α} (hl : left.Perm l) (hr : right.Perm r)
    (hperm : (l ++ r).Perm v) (hleft : c → left.Pairwise (Ahead key before))
    (hright : c → right.Pairwise (Ahead key before))
    (hcross : c → ∀ x ∈ l, ∀ y ∈ r, key x < key y) :
    (left ++ right).Perm v ∧ (c → (left ++ right).Pairwise (Ahead key before)) := by
  refine ⟨(hl.append hr).trans hperm, fun hc => ?_⟩
  refine List.pairwise_append.mpr ⟨hleft hc, hright hc, fun x hx y hy => ?_⟩
  exact Or.inl (hcross hc x (hl.mem_iff.mp hx) y (hr.mem_iff.mp hy))

section Sides

variable {v low high same above : List α} {pivot : α}

theorem Parted.lt_of_low (h : Parted (less · pivot) false v pivot low high)
    (hkey : ByKey less key v) (hpivot : pivot ∈ v) : ∀ x ∈ low, key x < key pivot := by
  intro x hx
  rcases h.left x hx with hless | ⟨hfalse, -⟩
  · exact (hkey x (h.sublist_left.subset hx) pivot hpivot).mp hless
  · exact absurd hfalse Bool.false_ne_true

theorem Parted.le_of_high (h : Parted (less · pivot) false v pivot low high)
    (hkey : ByKey less key v) (hpivot : pivot ∈ v) : ∀ x ∈ high, key pivot ≤ key x := by
  intro x hx
  rcases h.right x hx with hless | ⟨-, rfl⟩
  · exact (hkey.not_less (h.sublist_right.subset hx) hpivot).mp hless
  · exact le_rfl

theorem Parted.le_of_same (h : Parted (!less pivot ·) true v pivot same above)
    (hkey : ByKey less key v) (hpivot : pivot ∈ v) : ∀ x ∈ same, key x ≤ key pivot := by
  intro x hx
  rcases h.left x hx with hless | ⟨-, rfl⟩
  · exact (hkey.not_less hpivot (h.sublist_left.subset hx)).mp (Bool.not_eq_true' _ |>.mp hless)
  · exact le_rfl

theorem Parted.lt_of_above (h : Parted (!less pivot ·) true v pivot same above)
    (hkey : ByKey less key v) (hpivot : pivot ∈ v) : ∀ x ∈ above, key pivot < key x := by
  intro x hx
  rcases h.right x hx with hless | ⟨hfalse, -⟩
  · exact (hkey pivot hpivot x (h.sublist_right.subset hx)).mp (Bool.not_eq_false' _ |>.mp hless)
  · exact absurd hfalse.symm Bool.false_ne_true

/-- If the ancestor is not less than the pivot, or nothing goes below it, the pivot is least. -/
theorem Parted.least (h : Parted (less · pivot) false v pivot low high)
    (hkey : ByKey less key v) (hpivot : pivot ∈ v) {ancestor : Option α}
    (habove : Above less key ancestor v)
    (hleast : (ancestor.any (!less · pivot) || low.isEmpty) = true) :
    ∀ x ∈ v, key pivot ≤ key x := by
  intro x hx
  rcases Bool.or_eq_true _ _ |>.mp hleast with hany | hempty
  · obtain ⟨p, hp, hless⟩ := (Option.any_eq_true _ _).mp hany
    have hnot : ¬ key p < key pivot := by
      rw [← (habove p hp pivot hpivot).2, Bool.not_eq_true]
      exact Bool.not_eq_true' _ |>.mp hless
    exact (not_lt.mp hnot).trans (habove p hp x hx).1
  · rw [List.isEmpty_iff.mp hempty] at h
    exact h.le_of_high hkey hpivot x (h.perm.mem_iff.mpr hx)

end Sides

theorem yields_quicksort (hasymm : ∀ a b, before a b → ¬ before b a) (room limit : Nat)
    (ancestor : Option α) (v : List α) :
    Yields (Above less key ancestor v ∧ Orderly less key before v)
      (quicksort less room limit ancestor v) fun m => m.Perm v ∧
        (Above less key ancestor v ∧ Orderly less key before v →
          m.Pairwise (Ahead key before)) := by
  have hsorts : ∀ {outcome : Except Disorder (List α)} {ancestor : Option α} {v : List α},
      Sorts less key before outcome v →
      Yields (Above less key ancestor v ∧ Orderly less key before v) outcome fun m => m.Perm v ∧
        (Above less key ancestor v ∧ Orderly less key before v → m.Pairwise (Ahead key before)) :=
    fun h => h.imp And.right fun m hm => ⟨hm.perm, fun hc => hm.ordered hc.2⟩
  induction limit generalizing ancestor v with
  | zero =>
    rw [quicksort]
    split
    · exact hsorts (sorts_sortShort hasymm v)
    · exact hsorts (sorts_sortRuns room true (sorts_sortShort hasymm) v)
  | succ limit ih =>
    rw [quicksort]
    split
    next => exact hsorts (sorts_sortShort hasymm v)
    next hlong =>
      dsimp only
      generalize pivotPlace less v hlong = place
      have hpivot : v.get place ∈ v := List.get_mem v place
      have hlow := parted_partitionAt (less · (v.get place)) false v place
      have hsame := parted_partitionAt (!less (v.get place) ·) true v place
      generalize v.get place = pivot at hpivot hlow hsame ⊢
      generalize partitionAt (less · pivot) false v place = sides at hlow ⊢
      generalize partitionAt (!less pivot ·) true v place = sides' at hsame ⊢
      obtain ⟨low, high⟩ := sides
      obtain ⟨same, above⟩ := sides'
      split
      next hleast =>
        have hnone : Above less key none above := fun p hp => absurd hp (by simp)
        refine (ih none above).bind (fun hc => ⟨hnone, hc.2.sublist hsame.sublist_right⟩)
          fun m hm => .ok ?_
        refine sides_sorted (.refl same) hm.1 hsame.perm (fun hc => ?_)
          (fun hc => hm.2 ⟨hnone, hc.2.sublist hsame.sublist_right⟩) fun hc x hx y hy => ?_
        · -- all keys are the same, so the order is the one from before
          have hle := hlow.least hc.2.byKey hpivot hc.1 hleast
          have heq : ∀ x ∈ same, key x = key pivot := fun x hx =>
            le_antisymm (hsame.le_of_same hc.2.byKey hpivot x hx)
              (hle x (hsame.sublist_left.subset hx))
          refine (hc.2.before.sublist hsame.sublist_left).imp_of_mem fun hx hy hxy => ?_
          exact Or.inr ⟨(heq _ hx).trans (heq _ hy).symm, hxy⟩
        · exact (hsame.le_of_same hc.2.byKey hpivot x hx).trans_lt
            (hsame.lt_of_above hc.2.byKey hpivot y hy)
      next =>
        have hhigh : Orderly less key before v → Above less key (some pivot) high := by
          rintro hgood p ⟨⟩ x hx
          exact ⟨hlow.le_of_high hgood.byKey hpivot x hx,
            hgood.byKey pivot hpivot x (hlow.sublist_right.subset hx)⟩
        refine (ih (some pivot) high).bind
          (fun hc => ⟨hhigh hc.2, hc.2.sublist hlow.sublist_right⟩) fun m hm => ?_
        refine (ih ancestor low).bind
          (fun hc => ⟨hc.1.mono hlow.sublist_left.subset, hc.2.sublist hlow.sublist_left⟩)
          fun m' hm' => .ok ?_
        refine sides_sorted hm'.1 hm.1 hlow.perm
          (fun hc => hm'.2 ⟨hc.1.mono hlow.sublist_left.subset, hc.2.sublist hlow.sublist_left⟩)
          (fun hc => hm.2 ⟨hhigh hc.2, hc.2.sublist hlow.sublist_right⟩) fun hc x hx y hy => ?_
        exact (hlow.lt_of_low hc.2.byKey hpivot x hx).trans_le
          (hlow.le_of_high hc.2.byKey hpivot y hy)

/-! ## The sort -/

theorem sorts_sort (hasymm : ∀ a b, before a b → ¬ before b a) (v : List α) :
    Sorts less key before (sort less v) v := by
  rw [sort]
  dsimp only
  split
  · exact .ok (sortOf_insertion v)
  · refine sorts_sortRuns _ _ (fun w => ?_) v
    have hnone : Above less key none w := fun p hp => absurd hp (by simp)
    exact (yields_quicksort hasymm _ _ none w).imp (fun hgood => ⟨hnone, hgood⟩)
      fun m hm => ⟨hm.1, fun hgood => hm.2 ⟨hnone, hgood⟩⟩

/-- Whatever comes out of a sort is a rearrangement, even if the comparison contradicts itself. -/
theorem sort_perm {v m : List α} (h : sort less v = .ok m) : m.Perm v := by
  have hsorts : Sorts less (fun _ => (0 : Nat)) (fun _ _ => False) (sort less v) v :=
    sorts_sort (fun _ _ h => h.elim) v
  exact (hsorts.holds m h).perm

/-- A list of at most twenty elements is sorted by any comparison. -/
theorem exists_sort_of_length_le {v : List α} (h : v.length ≤ 20) : ∃ m, sort less v = .ok m :=
  ⟨_, if_pos h⟩

/-- With a comparison by keys the sort puts a list in order and keeps the order of equal keys. -/
theorem exists_sort (hasymm : ∀ a b, before a b → ¬ before b a) {v : List α}
    (hkey : ByKey less key v) (hbefore : v.Pairwise before) :
    ∃ m, sort less v = .ok m ∧ m.Perm v ∧ m.Pairwise (Ahead key before) := by
  have hsorts : Sorts less key before (sort less v) v := sorts_sort hasymm v
  obtain ⟨m, hm⟩ := hsorts.answers ⟨hkey, hbefore⟩
  have hsort := hsorts.holds m hm
  exact ⟨m, hm, hsort.perm, hsort.ordered ⟨hkey, hbefore⟩⟩

end StableSort
end LogLens
