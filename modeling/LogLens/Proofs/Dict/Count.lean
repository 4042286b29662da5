/-
Counting with dictionaries.

`countAll l` holds under each element of `l` how often it occurs, and nothing under any other key.
So it depends on `l` up to order only, its size is the number of distinct elements, its values add
up to the length of `l`, and a decrement undoes one occurrence.
-/
import LogLens.Proofs.Dict.Lookup

namespace LogLens
namespace Dict

variable {α : Type} [Key α]

theorem countAll_concat (l : List α) (k : α) :
    countAll (l ++ [k]) = (countAll l).increment k := by
  rw [countAll, List.foldl_append]
  rfl

variable [DecidableEq α]

theorem get?_increment (d : Dict α Nat) (k k' : α) :
    (d.increment k).get? k' = if k' = k then some ((d.get? k).getD 0 + 1) else d.get? k' :=
  get?_alter d k k' _

theorem get?_countAll (l : List α) (k : α) :
    (countAll l).get? k = if k ∈ l then some (l.count k) else none := by
  induction l using List.reverseRecOn with
  | nil => simp [countAll]
  | append_singleton l a ih =>
    rw [countAll_concat, get?_increment]
    by_cases hk : k = a
    · subst hk
      rw [ih]
      by_cases hmem : k ∈ l
      · simp [hmem]
      · simp [hmem, List.count_eq_zero_of_not_mem hmem]
    · simp [hk, ih, List.count_append, Ne.symm hk]

theorem countAll_perm {l m : List α} (h : l.Perm m) : countAll l = countAll m := by
  refine ext_get? fun k => ?_
  rw [get?_countAll, get?_countAll, h.count_eq k]
  simp only [h.mem_iff]

theorem mem_keys_countAll {l : List α} {k : α} : k ∈ (countAll l).keys ↔ k ∈ l := by
  rw [mem_keys_iff]
  by_cases hk : k ∈ l <;> simp [get?_countAll, hk]

theorem mem_entries_countAll {l : List α} {e : α × Nat} :
    e ∈ (countAll l).entries ↔ e.1 ∈ l ∧ e.2 = l.count e.1 := by
  rw [← Prod.mk.eta (p := e), ← get?_eq_some_iff, get?_countAll]
  by_cases hk : e.1 ∈ l
  · simp only [hk, if_true, Option.some.injEq, true_and]
    exact eq_comm
  · simp [hk]

theorem keys_countAll_perm (l : List α) : (countAll l).keys.Perm l.dedup := by
  refine (List.perm_ext_iff_of_nodup (keys_nodup _) (List.nodup_dedup l)).mpr fun k => ?_
  rw [mem_keys_countAll, List.mem_dedup]

theorem size_countAll (l : List α) : (countAll l).size = l.dedup.length := by
  rw [← (keys_countAll_perm l).length_eq, keys, List.length_map, size]

theorem countAll_eq_empty_iff {l : List α} : (countAll l).isEmpty = true ↔ l = [] := by
  rw [isEmpty_iff]
  constructor
  · intro h
    refine List.eq_nil_iff_forall_not_mem.mpr fun k hk => ?_
    have := h k
    rw [get?_countAll, if_pos hk] at this
    exact absurd this (by simp)
  · rintro rfl k
    rfl

theorem values_countAll (l : List α) : (countAll l).values = (countAll l).keys.map l.count := by
  rw [values, keys, List.map_map]
  exact List.map_congr_left fun e he => (mem_entries_countAll.mp he).2

theorem sum_values_countAll (l : List α) : (countAll l).values.sum = l.length := by
  rw [values_countAll, ((keys_countAll_perm l).map l.count).sum_eq]
  exact List.sum_map_count_dedup_eq_length l

/-! ## Taking occurrences away -/

theorem get?_decrement (d : Dict α Nat) (k k' : α) :
    (d.decrement k).get? k' =
      if k' = k then (match d.get? k with | some (m + 2) => some (m + 1) | _ => none)
      else d.get? k' :=
  get?_alter d k k' _

/-- A decrement takes one occurrence out of the list that was counted. -/
theorem decrement_countAll (l : List α) (k : α) :
    (countAll l).decrement k = countAll (l.erase k) := by
  refine ext_get? fun k' => ?_
  rw [get?_decrement, get?_countAll (l.erase k)]
  by_cases hk : k' = k
  · subst hk
    rw [if_pos rfl, get?_countAll]
    simp only [← List.count_pos_iff, List.count_erase_self]
    -- absent, the last occurrence, one of several
    match l.count k' with
    | 0 => rfl
    | 1 => rfl
    | m + 2 => rfl
  · rw [if_neg hk, get?_countAll, List.count_erase_of_ne hk]
    simp only [List.mem_erase_of_ne hk]

end Dict
end LogLens
