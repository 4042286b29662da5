/-
Field statistics are counts of what is shown.

Adding an entry counts each text it shows under its name, and removing the entry takes the same
counts away again; so what is known about a field depends only on the texts that the entries at hand
show under its name, up to their order (`Tallies`).  Fields whose texts are all gone are gone too.
-/
import LogLens.Proofs.Dict.Count
import LogLens.Proofs.Order.StableSort
import LogLens.Index.FieldStats

namespace LogLens
namespace Index

/-- The names under which an entry shows values, with the texts of these. -/
def shown (e : Entry) : List (String × String) :=
  (observed e).map fun f => (f.1, f.2.display)

/-- The texts under one name. -/
def textsOf (name : String) (pairs : List (String × String)) : List String :=
  (pairs.filter (·.1 = name)).map (·.2)

theorem textsOf_cons_self (name text : String) (pairs : List (String × String)) :
    textsOf name ((name, text) :: pairs) = text :: textsOf name pairs := by
  rw [textsOf, List.filter_cons_of_pos (by simp)]
  rfl

theorem textsOf_cons_ne {name name' : String} (h : name' ≠ name) (text : String)
    (pairs : List (String × String)) :
    textsOf name ((name', text) :: pairs) = textsOf name pairs := by
  rw [textsOf, List.filter_cons_of_neg (by simpa using h)]
  rfl

theorem textsOf_perm {pairs pairs' : List (String × String)} (h : pairs.Perm pairs')
    (name : String) : (textsOf name pairs).Perm (textsOf name pairs') :=
  (h.filter _).map _

theorem mem_textsOf {name text : String} {pairs : List (String × String)} :
    text ∈ textsOf name pairs ↔ (name, text) ∈ pairs := by
  simp only [textsOf, List.mem_map, List.mem_filter, decide_eq_true_eq]
  constructor
  · intro h
    obtain ⟨p, ⟨hp, rfl⟩, rfl⟩ := h
    exact hp
  · intro h
    exact ⟨(name, text), ⟨h, by simp⟩, rfl⟩

/-! ## Counts -/

/-- The counts of a list of texts; without texts there are none. -/
def countsOf (texts : List String) : Option (Dict String Nat) :=
  if texts = [] then none else some (Dict.countAll texts)

theorem countsOf_perm {texts texts' : List String} (h : texts.Perm texts') :
    countsOf texts = countsOf texts' := by
  rw [countsOf, countsOf, Dict.countAll_perm h]
  by_cases hnil : texts = []
  · rw [if_pos hnil, if_pos (hnil ▸ h).nil_eq.symm]
  · rw [if_neg hnil, if_neg fun hnil' => hnil (hnil' ▸ h).eq_nil]

theorem getD_countsOf (texts : List String) :
    (countsOf texts).getD Dict.empty = Dict.countAll texts := by
  by_cases h : texts = []
  · rw [h]
    rfl
  · simp [countsOf, h]

theorem countAll_cons (text : String) (texts : List String) :
    (Dict.countAll texts).increment text = Dict.countAll (text :: texts) := by
  rw [← Dict.countAll_concat]
  exact Dict.countAll_perm (List.perm_append_singleton text texts)

theorem decrement_countAll_cons (text : String) (texts : List String) :
    (Dict.countAll (text :: texts)).decrement text = Dict.countAll texts := by
  rw [Dict.decrement_countAll, List.erase_cons_head]

namespace FieldStats

/-- Every field has the counts of its texts. -/
def Tallies (stats : FieldStats) (pairs : List (String × String)) : Prop :=
  ∀ name, (Dict.get? stats name).map (·.counts) = countsOf (textsOf name pairs)

theorem tallies_empty : Tallies Dict.empty [] := by
  intro name
  rfl

theorem Tallies.perm {stats : FieldStats} {pairs pairs' : List (String × String)}
    (h : Tallies stats pairs) (hperm : pairs.Perm pairs') : Tallies stats pairs' := by
  intro name
  rw [h name]
  exact countsOf_perm (textsOf_perm hperm name)

/-! ## Adding -/

/-- Counts one value. -/
def addValue (stats : FieldStats) (name : String) (v : FieldValue) : FieldStats :=
  Dict.alter stats name fun s => some ((s.getD {}).add v)

theorem addEntry_eq (stats : FieldStats) (e : Entry) :
    addEntry stats e = (observed e).foldl (fun stats f => addValue stats f.1 f.2) stats := rfl

theorem Tallies.addValue {stats : FieldStats} {pairs : List (String × String)}
    (h : Tallies stats pairs) (name : String) (v : FieldValue) :
    Tallies (FieldStats.addValue stats name v) ((name, v.display) :: pairs) := by
  intro name'
  rw [FieldStats.addValue, Dict.get?_alter]
  by_cases hname : name' = name
  · subst hname
    have hcounts : ((Dict.get? stats name').getD {}).counts =
        Dict.countAll (textsOf name' pairs) := by
      rw [← getD_countsOf, ← h name']
      cases Dict.get? stats name' <;> rfl
    rw [if_pos rfl, textsOf_cons_self, countsOf, if_neg (List.cons_ne_nil _ _), ← countAll_cons,
      ← hcounts]
    rfl
  · rw [if_neg hname, textsOf_cons_ne (Ne.symm hname), h name']

theorem Tallies.addEntry {stats : FieldStats} {pairs : List (String × String)}
    (h : Tallies stats pairs) (e : Entry) :
    Tallies (FieldStats.addEntry stats e) (shown e ++ pairs) := by
  have hfold : ∀ (values : List (String × FieldValue)) (stats : FieldStats)
      (pairs : List (String × String)), Tallies stats pairs →
      Tallies (values.foldl (fun stats f => FieldStats.addValue stats f.1 f.2) stats)
        ((values.map fun f => (f.1, f.2.display)) ++ pairs) := by
    intro values
    induction values with
    | nil => exact fun _ _ h => h
    | cons f values ih =>
      intro stats pairs h
      refine (ih _ _ (h.addValue f.1 f.2)).perm ?_
      exact List.perm_middle
  rw [addEntry_eq]
  exact hfold (observed e) stats pairs h

/-! ## Removing -/

/-- A text that is shown has a positive count, so that the count can be lowered. -/
theorem Tallies.counted {stats : FieldStats} {pairs : List (String × String)}
    (h : Tallies stats pairs) {name text : String} (hmem : (name, text) ∈ pairs) :
    ∃ s n, Dict.get? stats name = some s ∧ s.counts.get? text = some n ∧ 0 < n := by
  have htext : text ∈ textsOf name pairs := mem_textsOf.mpr hmem
  have hcounts := h name
  rw [countsOf, if_neg (List.ne_nil_of_mem htext)] at hcounts
  obtain ⟨s, hs, hsc⟩ := Option.map_eq_some_iff.mp hcounts
  refine ⟨s, (textsOf name pairs).count text, hs, ?_, List.count_pos_iff.mpr htext⟩
  rw [hsc, Dict.get?_countAll, if_pos htext]

theorem Tallies.removeValue {stats : FieldStats} {name : String} {v : FieldValue}
    {pairs : List (String × String)} (h : Tallies stats ((name, v.display) :: pairs)) :
    Tallies (FieldStats.removeValue stats name v) pairs := by
  intro name'
  rw [FieldStats.removeValue, Dict.get?_alter]
  by_cases hname : name' = name
  · subst hname
    have hcounts := h name'
    rw [textsOf_cons_self, countsOf, if_neg (List.cons_ne_nil _ _)] at hcounts
    obtain ⟨s, hs, hsc⟩ := Option.map_eq_some_iff.mp hcounts
    obtain ⟨n, hn⟩ : ∃ n, s.counts.get? v.display = some n := by
      rw [hsc, Dict.get?_countAll, if_pos List.mem_cons_self]
      exact ⟨_, rfl⟩
    have hremove : (s.remove v).counts = Dict.countAll (textsOf name' pairs) := by
      rw [← decrement_countAll_cons v.display, ← hsc]
      simp only [FieldStat.remove, hn]
    rw [if_pos rfl, hs, Option.map_some, countsOf]
    -- the field goes exactly when no text is left
    by_cases hnil : textsOf name' pairs = []
    · have hempty := hremove ▸ Dict.countAll_eq_empty_iff.mpr hnil
      simp [hempty, hnil]
    · have hempty : (Dict.countAll (textsOf name' pairs)).isEmpty = false :=
        Bool.eq_false_iff.mpr (mt Dict.countAll_eq_empty_iff.mp hnil)
      simp [hempty, hnil, hremove]
  · rw [if_neg hname, ← textsOf_cons_ne (Ne.symm hname) v.display, h name']

/-- Removing values one after the other leaves the counts of the rest. -/
theorem Tallies.foldl_removeValue {values : List (String × FieldValue)} {stats : FieldStats}
    {pairs : List (String × String)}
    (h : Tallies stats ((values.map fun f => (f.1, f.2.display)) ++ pairs)) :
    Tallies (values.foldl (fun stats f => FieldStats.removeValue stats f.1 f.2) stats) pairs := by
  induction values generalizing stats with
  | nil => exact h
  | cons f values ih => exact ih (Tallies.removeValue h)

theorem Tallies.removeEntry {stats : FieldStats} {e : Entry} {pairs : List (String × String)}
    (h : Tallies stats (shown e ++ pairs)) : Tallies (FieldStats.removeEntry stats e) pairs :=
  Tallies.foldl_removeValue h

/-- While an entry is removed, every count that is lowered is there and positive. -/
theorem Tallies.removal_counted {stats : FieldStats} {e : Entry}
    {pairs : List (String × String)} (h : Tallies stats (shown e ++ pairs))
    {before after : List (String × FieldValue)} {name : String} {v : FieldValue}
    (hsplit : observed e = before ++ (name, v) :: after) :
    ∃ s n, Dict.get? (before.foldl (fun stats f => FieldStats.removeValue stats f.1 f.2) stats) name
      = some s ∧ s.counts.get? v.display = some n ∧ 0 < n := by
  rw [shown, hsplit, List.map_append, List.append_assoc] at h
  have hfirst : (name, v.display) ∈
      (((name, v) :: after).map fun f => (f.1, f.2.display)) ++ pairs := List.mem_cons_self
  exact (Tallies.foldl_removeValue h).counted hfirst

/-! ## What is known about a field -/

theorem Tallies.mem_keys {stats : FieldStats} {pairs : List (String × String)}
    (h : Tallies stats pairs) {name : String} :
    name ∈ Dict.keys stats ↔ name ∈ pairs.map (·.1) := by
  have hname := h name
  rw [Dict.mem_keys_iff, List.mem_map]
  constructor
  · intro hget
    obtain ⟨s, hs⟩ := hget
    rw [hs, Option.map_some, countsOf] at hname
    by_cases hnil : textsOf name pairs = []
    · rw [if_pos hnil] at hname
      exact absurd hname (by simp)
    · obtain ⟨text, htext⟩ := List.exists_mem_of_ne_nil _ hnil
      exact ⟨(name, text), mem_textsOf.mp htext, rfl⟩
  · intro hmem
    obtain ⟨p, hp, rfl⟩ := hmem
    obtain ⟨s, -, hs, -⟩ := h.counted (show (p.1, p.2) ∈ pairs from hp)
    exact ⟨s, hs⟩

theorem Tallies.counts_eq {stats : FieldStats} {pairs : List (String × String)}
    (h : Tallies stats pairs) {name : String} {s : FieldStat}
    (hs : Dict.get? stats name = some s) : s.counts = Dict.countAll (textsOf name pairs) := by
  have hname := h name
  rw [← getD_countsOf, ← hname, hs]
  rfl

end FieldStats

/-! ## The most frequent texts -/

/-- The different texts of a list, the most frequent ones first and equally frequent ones in
ascending order. -/
structure Ranking (texts ranking : List String) : Prop where
  perm : ranking.Perm texts.dedup
  ordered : ranking.Pairwise fun a b =>
    texts.count b < texts.count a ∨ (texts.count a = texts.count b ∧ a < b)

/-- The examples of a field are the beginning of the ranking of its texts. -/
theorem FieldStat.exists_ranking {s : FieldStat} {texts : List String}
    (h : s.counts = Dict.countAll texts) :
    ∃ ranking, Ranking texts ranking ∧ ∀ limit, s.examples limit = ranking.take limit := by
  let sorted := s.counts.entries.mergeSort fun a b => b.2 ≤ a.2
  have hcount : ∀ e ∈ sorted, e.2 = texts.count e.1 := by
    intro e he
    rw [List.mem_mergeSort, h] at he
    exact (Dict.mem_entries_countAll.mp he).2
  have hsorted := Order.pairwise_mergeSort_stable (fun a b => decide (b.2 ≤ a.2))
    (fun a b c hab hbc => by simp only [decide_eq_true_eq] at hab hbc ⊢; omega)
    (fun a b => by simp only [Bool.or_eq_true, decide_eq_true_eq]; omega)
    s.counts.entries_nodup s.counts.ascending
  refine ⟨sorted.map (·.1), ⟨?_, ?_⟩, fun limit => ?_⟩
  · have hkeys : (sorted.map (·.1)).Perm s.counts.keys :=
      (List.mergeSort_perm s.counts.entries _).map (·.1)
    rw [h] at hkeys
    exact hkeys.trans (Dict.keys_countAll_perm texts)
  · refine List.pairwise_map.mpr (hsorted.imp_of_mem fun {a b} ha hb hab => ?_)
    have hle : b.2 ≤ a.2 := by simpa using hab.1
    rw [← hcount a ha, ← hcount b hb]
    rcases Nat.lt_or_eq_of_le hle with hlt | heq
    · exact Or.inl hlt
    · exact Or.inr ⟨heq.symm, hab.2 (by simp [heq])⟩
  · rw [FieldStat.examples, List.map_take]

end Index
end LogLens
