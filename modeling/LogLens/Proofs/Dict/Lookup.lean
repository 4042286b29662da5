/-
Lookups determine a dictionary.

Entries are strictly ascending by key, so a key has at most one entry, `get?` finds it wherever it
stands, and two dictionaries that answer every lookup alike are equal.  Every change is an `alter`,
and `get?_alter` says what it does to lookups; no later proof goes through the entries one by one.
-/
import Mathlib
import LogLens.Dict

namespace LogLens
namespace Dict

variable {α β : Type} [Key α]

/-! ## Keys and entries -/

theorem key_eq_iff {a b : α} : (¬ Key.lt a b ∧ ¬ Key.lt b a) ↔ a = b := by
  constructor
  · intro h
    exact Key.eq_of_not_lt h.1 h.2
  · rintro rfl
    exact ⟨Key.irrefl a, Key.irrefl a⟩

theorem key_ne_of_lt {a b : α} (h : Key.lt a b) : a ≠ b := by
  rintro rfl
  exact Key.irrefl a h

/-- A list in ascending order holds a key at most once. -/
theorem eq_of_key_eq {l : List (α × β)} (h : l.Pairwise fun a b => Key.lt a.1 b.1)
    {a b : α × β} (ha : a ∈ l) (hb : b ∈ l) (hk : a.1 = b.1) : a = b := by
  induction l with
  | nil => exact absurd ha List.not_mem_nil
  | cons e rest ih =>
    obtain ⟨he, hrest⟩ := List.pairwise_cons.mp h
    rcases List.mem_cons.mp ha with rfl | ha'
    · rcases List.mem_cons.mp hb with rfl | hb'
      · rfl
      · exact absurd hk (key_ne_of_lt (he b hb'))
    · rcases List.mem_cons.mp hb with rfl | hb'
      · exact absurd hk.symm (key_ne_of_lt (he a ha'))
      · exact ih hrest ha' hb'

theorem get?_eq_some_iff {d : Dict α β} {k : α} {v : β} :
    d.get? k = some v ↔ (k, v) ∈ d.entries := by
  simp only [get?, Option.map_eq_some_iff]
  constructor
  · intro h
    obtain ⟨e, he, rfl⟩ := h
    have hk : e.1 = k := by
      have := List.find?_some he
      exact key_eq_iff.mp (by simpa using this)
    rw [← hk]
    exact List.mem_of_find?_eq_some he
  · intro h
    have hfound : (d.entries.find? fun e => ¬ Key.lt e.1 k ∧ ¬ Key.lt k e.1).isSome := by
      rw [List.find?_isSome]
      exact ⟨(k, v), h, by simpa using Key.irrefl k⟩
    obtain ⟨e, he⟩ := Option.isSome_iff_exists.mp hfound
    have hk : e.1 = k := by
      have := List.find?_some he
      exact key_eq_iff.mp (by simpa using this)
    have hev : e = (k, v) := eq_of_key_eq d.ascending (List.mem_of_find?_eq_some he) h hk
    exact ⟨e, he, by rw [hev]⟩

theorem get?_eq_none_iff {d : Dict α β} {k : α} :
    d.get? k = none ↔ ∀ e ∈ d.entries, e.1 ≠ k := by
  constructor
  · rintro h e he rfl
    rw [get?_eq_some_iff.mpr he] at h
    exact absurd h (by simp)
  · intro h
    cases hv : d.get? k with
    | none => rfl
    | some v => exact absurd rfl (h _ (get?_eq_some_iff.mp hv))

theorem entries_injective {d e : Dict α β} (h : d.entries = e.entries) : d = e := by
  cases d
  cases e
  cases h
  rfl

/-- Two lists in ascending order with the same members are equal. -/
theorem eq_of_mem_iff {l m : List (α × β)} (hl : l.Pairwise fun a b => Key.lt a.1 b.1)
    (hm : m.Pairwise fun a b => Key.lt a.1 b.1) (h : ∀ e, e ∈ l ↔ e ∈ m) : l = m := by
  have nodup : ∀ {l : List (α × β)}, (l.Pairwise fun a b => Key.lt a.1 b.1) → l.Nodup := by
    intro l hl
    exact hl.imp fun {a b} hab hEq => key_ne_of_lt hab (congrArg Prod.fst hEq)
  have hperm : l.Perm m := (List.perm_ext_iff_of_nodup (nodup hl) (nodup hm)).mpr h
  exact hperm.eq_of_pairwise
    (fun a b _ _ hab hba => absurd (Key.trans hab hba) (Key.irrefl a.1)) hl hm

/-- Lookups determine a dictionary. -/
theorem ext_get? {d e : Dict α β} (h : ∀ k, d.get? k = e.get? k) : d = e := by
  refine entries_injective (eq_of_mem_iff d.ascending e.ascending fun p => ?_)
  rw [← Prod.mk.eta (p := p), ← get?_eq_some_iff, ← get?_eq_some_iff, h]

/-- At most one entry has a given key. -/
theorem filter_entries [DecidableEq α] (d : Dict α β) (k : α) :
    d.entries.filter (·.1 = k) = ((d.get? k).map (k, ·)).toList := by
  have hone : (((d.get? k).map (k, ·)).toList : List (α × β)).Pairwise
      fun a b => Key.lt a.1 b.1 := by
    cases d.get? k <;> simp
  refine eq_of_mem_iff (d.ascending.filter _) hone fun e => ?_
  rw [List.mem_filter, decide_eq_true_eq, Option.mem_toList, Option.map_eq_some_iff]
  simp only [get?_eq_some_iff]
  constructor
  · rintro ⟨he, rfl⟩
    exact ⟨e.2, he, rfl⟩
  · rintro ⟨v, hv, rfl⟩
    exact ⟨hv, rfl⟩

/-! ## Changes -/

@[simp]
theorem get?_empty (k : α) : (empty : Dict α β).get? k = none := rfl

theorem mem_alterEntries_of_ne {k : α} {f : Option β → Option β} {e : α × β} (hk : e.1 ≠ k)
    (l : List (α × β)) : e ∈ alterEntries k f l ↔ e ∈ l := by
  have hnew : ∀ o : Option β, e ∉ (o.map (k, ·)).toList := by
    intro o ho
    simp only [Option.mem_toList, Option.map_eq_some_iff] at ho
    obtain ⟨v, -, rfl⟩ := ho
    exact hk rfl
  induction l with
  | nil => simp [alterEntries, hnew]
  | cons a rest ih =>
    simp only [alterEntries]
    split
    · simp [hnew]
    · split
      · simp [ih]
      · rename_i h h'
        have hak : k = a.1 := Key.eq_of_not_lt h h'
        have hea : e ≠ a := by
          rintro rfl
          exact hk hak.symm
        simp [hnew, hea]

theorem mem_alterEntries_self {k : α} {f : Option β → Option β} {v : β} {l : List (α × β)}
    (hl : l.Pairwise fun a b => Key.lt a.1 b.1) :
    (k, v) ∈ alterEntries k f l ↔
      (∃ w, (k, w) ∈ l ∧ f (some w) = some v) ∨ ((∀ e ∈ l, e.1 ≠ k) ∧ f none = some v) := by
  induction l with
  | nil => simp [alterEntries]
  | cons a rest ih =>
    obtain ⟨ha, hrest⟩ := List.pairwise_cons.mp hl
    simp only [alterEntries]
    split
    · -- every key of the list is greater
      rename_i h
      have hne : ∀ e ∈ a :: rest, e.1 ≠ k := by
        intro e he
        rcases List.mem_cons.mp he with rfl | he
        · exact (key_ne_of_lt h).symm
        · exact (key_ne_of_lt (Key.trans h (ha e he))).symm
      have hnot : ∀ w, (k, w) ∉ a :: rest := fun w hw => hne _ hw rfl
      rw [List.mem_append]
      simp only [hnot, or_false, Option.mem_toList, Option.map_eq_some_iff, Prod.mk.injEq,
        true_and, exists_eq_right, false_and, exists_false, false_or]
      exact ⟨fun h => ⟨hne, h⟩, fun h => h.2⟩
    · split
      · rename_i h h'
        have hak : a.1 ≠ k := key_ne_of_lt h'
        have hak' : ∀ w, (k, w) ≠ a := by
          rintro w rfl
          exact hak rfl
        simp only [List.mem_cons, ih hrest, hak', false_or, forall_eq_or_imp, ne_eq, hak,
          not_false_eq_true, true_and]
      · rename_i h h'
        have hak : k = a.1 := Key.eq_of_not_lt h h'
        have hrest' : ∀ w, (k, w) ∉ rest := by
          intro w hw
          exact key_ne_of_lt (ha _ hw) hak.symm
        obtain ⟨ak, av⟩ := a
        cases hak
        constructor
        · intro h
          rcases List.mem_append.mp h with h | h
          · simp only [Option.mem_toList, Option.map_eq_some_iff, Prod.mk.injEq, true_and,
              exists_eq_right] at h
            exact Or.inl ⟨av, List.mem_cons_self, h⟩
          · exact absurd h (hrest' v)
        · rintro (⟨w, hw, hf⟩ | ⟨hnone, -⟩)
          · rcases List.mem_cons.mp hw with hw | hw
            · cases hw
              exact List.mem_append.mpr (Or.inl (by simp [hf]))
            · exact absurd hw (hrest' w)
          · exact absurd rfl (hnone _ List.mem_cons_self)

/-- An alteration under `k` changes the answer for `k` alone. -/
theorem get?_alter [DecidableEq α] (d : Dict α β) (k k' : α) (f : Option β → Option β) :
    (d.alter k f).get? k' = if k' = k then f (d.get? k) else d.get? k' := by
  refine Option.ext fun v => ?_
  rw [get?_eq_some_iff]
  by_cases hk : k' = k
  · subst hk
    rw [if_pos rfl]
    refine (mem_alterEntries_self d.ascending).trans ?_
    cases hd : d.get? k' with
    | none =>
      have hnone := get?_eq_none_iff.mp hd
      have hnot : ∀ w, (k', w) ∉ d.entries := fun w hw => hnone _ hw rfl
      simp only [hnot, false_and, exists_false, false_or]
      exact ⟨fun h => h.2, fun h => ⟨hnone, h⟩⟩
    | some w =>
      have hw := get?_eq_some_iff.mp hd
      constructor
      · rintro (⟨w', hw', h⟩ | ⟨hnone, -⟩)
        · rw [← get?_eq_some_iff, hd] at hw'
          rw [Option.some.inj hw']
          exact h
        · exact absurd rfl (hnone _ hw)
      · intro h
        exact Or.inl ⟨w, hw, h⟩
  · rw [if_neg hk, get?_eq_some_iff]
    exact mem_alterEntries_of_ne (e := (k', v)) hk d.entries

theorem get?_insert [DecidableEq α] (d : Dict α β) (k k' : α) (v : β) :
    (d.insert k v).get? k' = if k' = k then some v else d.get? k' :=
  get?_alter d k k' _

theorem get?_erase [DecidableEq α] (d : Dict α β) (k k' : α) :
    (d.erase k).get? k' = if k' = k then none else d.get? k' :=
  get?_alter d k k' _

/-- Putting pairs in one after the other leaves the last pair of each key. -/
theorem get?_insertAll [DecidableEq α] (d : Dict α β) (pairs : List (α × β)) (k : α) :
    (d.insertAll pairs).get? k =
      ((pairs.reverse.find? fun p => p.1 = k).map (·.2)).or (d.get? k) := by
  induction pairs generalizing d with
  | nil => rfl
  | cons p rest ih =>
    show ((d.insert p.1 p.2).insertAll rest).get? k = _
    rw [ih, get?_insert, List.reverse_cons, List.find?_append]
    cases rest.reverse.find? (fun p => p.1 = k) with
    | some q => rfl
    | none =>
      by_cases hk : k = p.1
      · simp [hk]
      · simp [hk, Ne.symm hk]

theorem get?_ofList [DecidableEq α] (pairs : List (α × β)) (k : α) :
    (ofList pairs).get? k = (pairs.reverse.find? fun p => p.1 = k).map (·.2) := by
  rw [ofList, get?_insertAll, get?_empty, Option.or_none]

/-- Where no key comes twice, every pair is found. -/
theorem get?_ofList_eq_some_iff [DecidableEq α] {pairs : List (α × β)}
    (h : (pairs.map (·.1)).Nodup) {k : α} {v : β} :
    (ofList pairs).get? k = some v ↔ (k, v) ∈ pairs := by
  rw [get?_ofList, Option.map_eq_some_iff]
  constructor
  · intro hfound
    obtain ⟨p, hp, rfl⟩ := hfound
    have hk : p.1 = k := by simpa using List.find?_some hp
    rw [← hk]
    exact List.mem_reverse.mp (List.mem_of_find?_eq_some hp)
  · intro hv
    have hfound : (pairs.reverse.find? fun p => p.1 = k).isSome := by
      rw [List.find?_isSome]
      exact ⟨(k, v), List.mem_reverse.mpr hv, by simp⟩
    obtain ⟨p, hp⟩ := Option.isSome_iff_exists.mp hfound
    have hk : p.1 = k := by simpa using List.find?_some hp
    have hpv : p = (k, v) :=
      List.inj_on_of_nodup_map h (List.mem_reverse.mp (List.mem_of_find?_eq_some hp)) hv hk
    exact ⟨p, hp, by rw [hpv]⟩

theorem mem_entries_ofList [DecidableEq α] {pairs : List (α × β)}
    (h : (pairs.map (·.1)).Nodup) {e : α × β} : e ∈ (ofList pairs).entries ↔ e ∈ pairs := by
  rw [← Prod.mk.eta (p := e), ← get?_eq_some_iff, get?_ofList_eq_some_iff h]

/-- Pairs in ascending order are the entries of the dictionary made from them. -/
theorem entries_ofList [DecidableEq α] {pairs : List (α × β)}
    (h : pairs.Pairwise fun a b => Key.lt a.1 b.1) : (ofList pairs).entries = pairs := by
  have hkeys : (pairs.map (·.1)).Nodup := List.pairwise_map.mpr (h.imp key_ne_of_lt)
  exact eq_of_mem_iff (ofList pairs).ascending h fun _ => mem_entries_ofList hkeys

/-! ## Questions -/

theorem contains_iff {d : Dict α β} {k : α} : d.contains k = true ↔ ∃ v, d.get? k = some v :=
  Option.isSome_iff_exists

theorem mem_keys_iff {d : Dict α β} {k : α} : k ∈ d.keys ↔ ∃ v, d.get? k = some v := by
  simp only [keys, List.mem_map, get?_eq_some_iff]
  constructor
  · intro h
    obtain ⟨e, he, rfl⟩ := h
    exact ⟨e.2, he⟩
  · intro h
    obtain ⟨v, hv⟩ := h
    exact ⟨(k, v), hv, rfl⟩

theorem mem_keys_ofList [DecidableEq α] {pairs : List (α × β)} {k : α} :
    k ∈ (ofList pairs).keys ↔ ∃ v, (k, v) ∈ pairs := by
  rw [mem_keys_iff]
  simp only [get?_ofList, Option.map_eq_some_iff]
  constructor
  · intro h
    obtain ⟨-, p, hp, -⟩ := h
    have hk : p.1 = k := by simpa using List.find?_some hp
    rw [← hk]
    exact ⟨p.2, List.mem_reverse.mp (List.mem_of_find?_eq_some hp)⟩
  · intro h
    obtain ⟨v, hv⟩ := h
    have hfound : (pairs.reverse.find? fun p => p.1 = k).isSome := by
      rw [List.find?_isSome]
      exact ⟨(k, v), List.mem_reverse.mpr hv, by simp⟩
    obtain ⟨p, hp⟩ := Option.isSome_iff_exists.mp hfound
    exact ⟨p.2, p, hp, rfl⟩

theorem mem_values_iff {d : Dict α β} {v : β} : v ∈ d.values ↔ ∃ k, d.get? k = some v := by
  simp only [values, List.mem_map, get?_eq_some_iff]
  constructor
  · intro h
    obtain ⟨e, he, rfl⟩ := h
    exact ⟨e.1, he⟩
  · intro h
    obtain ⟨k, hk⟩ := h
    exact ⟨(k, v), hk, rfl⟩

theorem keys_ascending (d : Dict α β) : d.keys.Pairwise Key.lt :=
  List.pairwise_map.mpr d.ascending

theorem keys_nodup (d : Dict α β) : d.keys.Nodup :=
  d.keys_ascending.imp key_ne_of_lt

theorem entries_nodup (d : Dict α β) : d.entries.Nodup :=
  d.keys_nodup.of_map

/-- Pairs in any order are the entries, if no key comes twice. -/
theorem entries_ofList_perm [DecidableEq α] {pairs : List (α × β)}
    (h : (pairs.map (·.1)).Nodup) : (ofList pairs).entries.Perm pairs :=
  (List.perm_ext_iff_of_nodup (entries_nodup _) (h.of_map _)).mpr fun _ => mem_entries_ofList h

theorem isEmpty_iff {d : Dict α β} : d.isEmpty = true ↔ ∀ k, d.get? k = none := by
  rw [isEmpty, List.isEmpty_iff]
  constructor
  · intro h k
    rw [get?_eq_none_iff, h]
    exact fun e he => absurd he List.not_mem_nil
  · intro h
    refine List.eq_nil_iff_forall_not_mem.mpr fun e he => ?_
    exact get?_eq_none_iff.mp (h e.1) e he rfl

/-- Keys in ascending order are determined by their members. -/
theorem keys_eq_of_mem_iff {l m : List α} (hl : l.Pairwise Key.lt) (hm : m.Pairwise Key.lt)
    (h : ∀ k, k ∈ l ↔ k ∈ m) : l = m := by
  have hperm : l.Perm m :=
    (List.perm_ext_iff_of_nodup (hl.imp key_ne_of_lt) (hm.imp key_ne_of_lt)).mpr h
  exact hperm.eq_of_pairwise (fun a b _ _ hab hba => absurd (Key.trans hab hba) (Key.irrefl a))
    hl hm

theorem keys_erase [DecidableEq α] (d : Dict α β) (k : α) :
    (d.erase k).keys = d.keys.filter (· ≠ k) := by
  refine keys_eq_of_mem_iff (d.erase k).keys_ascending (d.keys_ascending.filter _) fun k' => ?_
  rw [List.mem_filter, mem_keys_iff, mem_keys_iff, get?_erase, decide_eq_true_eq]
  by_cases hk : k' = k <;> simp [hk]

theorem length_keys (d : Dict α β) : d.keys.length = d.size := by
  rw [keys, List.length_map, size]

/-- Taking a key out makes a dictionary smaller by one, if it has the key. -/
theorem size_erase [DecidableEq α] (d : Dict α β) (k : α) :
    (d.erase k).size + (if d.contains k then 1 else 0) = d.size := by
  rw [← length_keys, ← length_keys, keys_erase]
  by_cases hk : k ∈ d.keys
  · have hheld : d.contains k = true := contains_iff.mpr (mem_keys_iff.mp hk)
    have herase : d.keys.filter (· ≠ k) = d.keys.erase k := by
      rw [d.keys_nodup.erase_eq_filter]
      refine List.filter_congr fun k' _ => ?_
      by_cases heq : k' = k <;> simp [heq]
    rw [if_pos hheld, herase, List.length_erase_of_mem hk]
    have hpos := List.length_pos_of_mem hk
    omega
  · have hheld : ¬ d.contains k = true := fun h => hk (mem_keys_iff.mpr (contains_iff.mp h))
    have hself : d.keys.filter (· ≠ k) = d.keys := by
      refine List.filter_eq_self.mpr fun k' hk' => ?_
      rw [decide_eq_true_eq]
      intro heq
      exact hk (heq ▸ hk')
    rw [if_neg hheld, hself, Nat.add_zero]

end Dict
end LogLens
