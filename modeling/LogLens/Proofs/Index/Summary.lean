/-
Sizes, counts and summaries of an index.

All of them are functions of the live records.  The index keeps most of them up to date step by
step, but what they come to (`Figures`) can be read off the records that are left.
-/
import LogLens.Proofs.Index.Search
import LogLens.Proofs.Time.Order

namespace LogLens

open Index

/-! ## Terms -/

namespace Index
namespace TextIndex

theorem mem_keys_postings {rules : IndexRules} {records : List Record} {term : String} :
    term ∈ (ofRecords rules records).postings.keys ↔
      term ∈ records.flatMap fun r => termsOfEntry r.toEntry := by
  rw [Dict.mem_keys_iff, List.mem_flatMap]
  simp only [get?_postings, nonempty?_eq_some_iff, ← occurrencesOf_ne_nil_iff]
  constructor
  · intro h
    obtain ⟨list, -, hne⟩ := h
    by_contra hnone
    push Not at hnone
    exact hne (List.flatMap_eq_nil_iff.mpr hnone)
  · intro h
    obtain ⟨r, hr, hne⟩ := h
    refine ⟨_, rfl, fun hnil => hne ?_⟩
    exact List.flatMap_eq_nil_iff.mp hnil r hr

/-- The index lists every term of its records once. -/
theorem termCount_ofRecords (rules : IndexRules) (records : List Record) :
    (ofRecords rules records).termCount =
      (records.flatMap fun r => termsOfEntry r.toEntry).dedup.length := by
  rw [termCount, ← Dict.length_keys]
  refine List.Perm.length_eq ?_
  refine (List.perm_ext_iff_of_nodup (Dict.keys_nodup _) (List.nodup_dedup _)).mpr fun term => ?_
  rw [mem_keys_postings, List.mem_dedup]

end TextIndex
end Index

namespace LogIndex

/-! ## Removing -/

theorem contains_removeOne (ix : LogIndex) (id id' : RecordId) :
    (ix.removeOne id).slots.contains id' = true ↔ ix.slots.contains id' = true ∧ id' ≠ id := by
  cases hget : ix.slots.get? id with
  | none =>
    have hself : ix.removeOne id = ix := by
      simp only [removeOne, hget]
    rw [hself, Dict.contains_iff]
    refine ⟨fun h => ⟨h, fun heq => ?_⟩, And.left⟩
    obtain ⟨slot, hslot⟩ := h
    rw [heq, hget] at hslot
    exact absurd hslot (by simp)
  | some slot =>
    have hslots : (ix.removeOne id).slots = ix.slots.erase id := by
      simp only [removeOne, hget]
    rw [hslots, Dict.contains_iff, Dict.contains_iff, Dict.get?_erase]
    by_cases heq : id' = id <;> simp [heq]

theorem size_removeOne (ix : LogIndex) (id : RecordId) :
    (ix.removeOne id).size + (if ix.slots.contains id then 1 else 0) = ix.size := by
  cases hget : ix.slots.get? id with
  | none => simp [removeOne, hget, Dict.contains]
  | some slot =>
    simp only [removeOne, hget, size]
    exact Dict.size_erase ix.slots id

/-- What `remove` counts is how much smaller the index gets. -/
theorem size_remove (ix : LogIndex) (ids : List RecordId) :
    (ix.remove ids).1.size + (ix.remove ids).2 = ix.size := by
  induction ids generalizing ix with
  | nil => rfl
  | cons id ids ih =>
    have hrest := ih (ix.removeOne id)
    have hone := size_removeOne ix id
    show ((ix.removeOne id).remove ids).1.size + (((ix.removeOne id).remove ids).2 + _) = _
    omega

/-- The different identifiers of a list under which the index holds a record. -/
def heldAmong (ix : LogIndex) (ids : List RecordId) : Finset RecordId :=
  ids.toFinset.filter fun id => ix.slots.contains id = true

/-- An identifier that is given twice, or is not held, is not counted. -/
theorem remove_count (ix : LogIndex) (ids : List RecordId) :
    (ix.remove ids).2 = (ix.heldAmong ids).card := by
  induction ids generalizing ix with
  | nil => rfl
  | cons id ids ih =>
    have hrest : (ix.removeOne id).heldAmong ids = (ix.heldAmong ids).erase id := by
      ext id'
      simp only [heldAmong, Finset.mem_filter, Finset.mem_erase, contains_removeOne]
      tauto
    show ((ix.removeOne id).remove ids).2 + (if ix.slots.contains id then 1 else 0) = _
    rw [ih, hrest, heldAmong, heldAmong, List.toFinset_cons, Finset.filter_insert]
    by_cases hheld : ix.slots.contains id = true
    · rw [if_pos hheld, if_pos hheld, ← Finset.erase_insert_eq_erase,
        Finset.card_erase_add_one (Finset.mem_insert_self _ _)]
    · rw [if_neg hheld, if_neg hheld, Nat.add_zero, Finset.erase_eq_of_notMem]
      intro hmem
      exact hheld (Finset.mem_filter.mp hmem).2

/-! ## Sums and extremes -/

theorem sum_map_filter_ne_zero {α : Type} (count : α → Nat) (l : List α) :
    (((l.map fun a => (a, count a)).filter (·.2 ≠ 0)).map (·.2)).sum = (l.map count).sum := by
  induction l with
  | nil => rfl
  | cons a l ih =>
    rw [List.map_cons, List.map_cons, List.sum_cons, ← ih]
    by_cases h : count a = 0
    · rw [List.filter_cons_of_neg (by simpa using h), h, Nat.zero_add]
    · rw [List.filter_cons_of_pos (by simpa using h), List.map_cons, List.sum_cons]

/-- Every entry has one of the levels. -/
theorem sum_countP_level (entries : List Entry) :
    (Level.all.map fun level => entries.countP (·.level == level)).sum = entries.length := by
  induction entries with
  | nil => rfl
  | cons e entries ih =>
    have hone : (Level.all.map fun level => if e.level == level then 1 else 0).sum = 1 := by
      cases e.level <;> decide
    simp only [List.countP_cons, List.sum_map_add, ih, hone, List.length_cons]

theorem joinAll?_earlier (l : List Instant) : joinAll? earlier l = l.min? := by
  cases l <;> rfl

theorem joinAll?_later (l : List Instant) : joinAll? later l = l.max? := by
  cases l <;> rfl

/-! ## Figures -/

/-- Everything that the given records show, name by name. -/
def shownBy (records : List Record) : List (String × String) :=
  records.flatMap fun r => shown r.toEntry

/-- What an index that holds the given records says about them. -/
structure Figures (rules : IndexRules) (ix : LogIndex) (records : List Record) : Prop where
  size : ix.size = records.length
  get : ∀ id r, ix.get? id = some r ↔ r ∈ records ∧ r.id = id
  /-- The identifiers that are held are counted once each, and those records go. -/
  removed : ∀ ids, (ix.remove ids).2 = (ix.heldAmong ids).card ∧
    (ix.remove ids).1.size + (ix.remove ids).2 = ix.size
  total : ix.summary.totalEntries = ix.size
  levels : (ix.summary.levelCounts.map (·.2)).sum = ix.summary.totalEntries
  perLevel : ∀ level n, (level, n) ∈ ix.summary.levelCounts ↔
    n = records.countP (·.level == level) ∧ n ≠ 0
  files : ix.summary.fileCounts.values.sum = ix.summary.totalEntries
  perFile : ix.summary.fileCounts = Dict.countAll (records.map (·.file))
  earliest : ∀ t, ix.summary.earliest = some t ↔
    t ∈ records.map (·.timestamp) ∧ ∀ r ∈ records, t ≤ r.timestamp
  latest : ∀ t, ix.summary.latest = some t ↔
    t ∈ records.map (·.timestamp) ∧ ∀ r ∈ records, r.timestamp ≤ t
  timeless : records = [] → ix.summary.earliest = none ∧ ix.summary.latest = none
  terms : ix.summary.distinctTerms = (records.flatMap fun r => termsOfEntry r.toEntry).dedup.length
  /-- Fields are listed in ascending order, so each of them once. -/
  names : ∀ now, ((ix.suggestions now).map (·.field)).Pairwise (· < ·)
  observed : ∀ now name, name ∈ (ix.suggestions now).map (·.field) ↔
    ∃ r ∈ records, name ∈ (Index.observed r.toEntry).map (·.1)
  cardinality : ∀ now, ∀ s ∈ ix.suggestions now,
    s.cardinality = (textsOf s.field (shownBy records)).dedup.length
  examples : ∀ now, ∀ s ∈ ix.suggestions now, ∃ ranking,
    Ranking (textsOf s.field (shownBy records)) ranking ∧
      s.examples = ranking.take rules.maxExamples
  /-- When a record is taken out, each count that is lowered is there and positive. -/
  lowered : ∀ r ∈ records, ∀ before name v later,
    Index.observed r.toEntry = before ++ (name, v) :: later →
    ∃ s n, Dict.get? (before.foldl (fun stats f => FieldStats.removeValue stats f.1 f.2) ix.stats)
      name = some s ∧ s.counts.get? v.display = some n ∧ 0 < n

theorem map_field_suggestions (ix : LogIndex) (now : Instant) :
    (ix.suggestions now).map (·.field) = Dict.keys ix.stats := by
  rw [suggestions, FieldStats.suggestions, List.map_map]
  rfl

theorem mem_map_shownBy {records : List Record} {name : String} :
    name ∈ (shownBy records).map (·.1) ↔
      ∃ r ∈ records, name ∈ (observed r.toEntry).map (·.1) := by
  have hshown : ∀ e : Entry, (shown e).map (·.1) = (observed e).map (·.1) := by
    intro e
    rw [shown, List.map_map]
    rfl
  rw [shownBy, List.map_flatMap, List.mem_flatMap]
  simp only [hshown]

namespace Holds

variable {rules : IndexRules} {ix : LogIndex} {slots : List Slot}

theorem get?_eq_some_iff (h : Holds rules ix slots) {id : RecordId} {r : Record} :
    ix.get? id = some r ↔ r ∈ slots.map (·.record) ∧ r.id = id := by
  rw [LogIndex.get?, Option.map_eq_some_iff, List.mem_map]
  constructor
  · intro hget
    obtain ⟨slot, hslot, rfl⟩ := hget
    obtain ⟨hmem, hid⟩ := (h.held id slot).mp hslot
    exact ⟨⟨slot, hmem, rfl⟩, hid⟩
  · intro hmem
    obtain ⟨⟨slot, hslot, rfl⟩, hid⟩ := hmem
    exact ⟨slot, (h.held id slot).mpr ⟨hslot, hid⟩, rfl⟩

theorem size_eq (h : Holds rules ix slots) : ix.size = slots.length := by
  rw [size, ← h.values_perm.length_eq, Dict.values, List.length_map, Dict.size]

theorem mem_levelCounts_iff (h : Holds rules ix slots) {level : Level} {n : Nat} :
    (level, n) ∈ ix.summary.levelCounts ↔
      n = (slots.map (·.record)).countP (·.level == level) ∧ n ≠ 0 := by
  have hcount : (ix.slots.values.map (·.record.toEntry)).countP (·.level == level) =
      (slots.map (·.record)).countP (·.level == level) := by
    rw [List.countP_map, List.countP_map]
    exact h.values_perm.countP_eq _
  have hall : level ∈ Level.all := by
    cases level <;> decide
  rw [summary, List.mem_filter, List.mem_map, decide_eq_true_eq]
  refine and_congr_left' ?_
  constructor
  · intro hmem
    obtain ⟨level', -, heq⟩ := hmem
    obtain ⟨rfl, rfl⟩ := Prod.mk.inj heq
    exact hcount
  · intro hn
    exact ⟨level, hall, congrArg (level, ·) (hcount.trans hn.symm)⟩

theorem fileCounts_eq (h : Holds rules ix slots) :
    ix.summary.fileCounts = Dict.countAll ((slots.map (·.record)).map (·.file)) := by
  have hperm := h.values_perm.map fun slot => slot.record.file
  rw [summary, List.map_map, List.map_map (l := slots)]
  exact Dict.countAll_perm hperm

theorem timestamps_perm (h : Holds rules ix slots) :
    ((ix.slots.values.map (·.record.toEntry)).map (·.timestamp)).Perm
      ((slots.map (·.record)).map (·.timestamp)) := by
  rw [List.map_map, List.map_map]
  exact h.values_perm.map _

theorem earliest_iff (h : Holds rules ix slots) (t : Instant) :
    ix.summary.earliest = some t ↔ t ∈ (slots.map (·.record)).map (·.timestamp) ∧
      ∀ r ∈ slots.map (·.record), t ≤ r.timestamp := by
  rw [summary, joinAll?_earlier, List.min?_eq_some_iff]
  simp only [h.timestamps_perm.mem_iff, List.forall_mem_map]

theorem latest_iff (h : Holds rules ix slots) (t : Instant) :
    ix.summary.latest = some t ↔ t ∈ (slots.map (·.record)).map (·.timestamp) ∧
      ∀ r ∈ slots.map (·.record), r.timestamp ≤ t := by
  rw [summary, joinAll?_later, List.max?_eq_some_iff]
  simp only [h.timestamps_perm.mem_iff, List.forall_mem_map]

theorem earliest_latest_eq_none (h : Holds rules ix slots) (hnil : slots.map (·.record) = []) :
    ix.summary.earliest = none ∧ ix.summary.latest = none := by
  have hvalues : ix.slots.values = [] := by
    have hperm := h.values_perm
    rw [List.map_eq_nil_iff.mp hnil] at hperm
    exact hperm.eq_nil
  rw [summary, hvalues]
  exact ⟨rfl, rfl⟩

theorem tallies (h : Holds rules ix slots) :
    FieldStats.Tallies ix.stats (shownBy (slots.map (·.record))) := by
  rw [shownBy, List.flatMap_map]
  exact h.stats

theorem mem_suggestions (h : Holds rules ix slots) {now : Instant} {s : Suggestion}
    (hs : s ∈ ix.suggestions now) :
    ∃ stat : FieldStat,
      stat.counts = Dict.countAll (textsOf s.field (shownBy (slots.map (·.record)))) ∧
        s.cardinality = stat.counts.size ∧ s.examples = stat.examples rules.maxExamples := by
  obtain ⟨e, he, rfl⟩ := List.mem_map.mp hs
  refine ⟨e.2, h.tallies.counts_eq (Dict.get?_eq_some_iff.mpr he), rfl, ?_⟩
  rw [← h.sameRules]

theorem lowered (h : Holds rules ix slots) {r : Record} (hr : r ∈ slots.map (·.record))
    {before later : List (String × FieldValue)} {name : String} {v : FieldValue}
    (hsplit : observed r.toEntry = before ++ (name, v) :: later) :
    ∃ s n, Dict.get? (before.foldl (fun stats f => FieldStats.removeValue stats f.1 f.2) ix.stats)
      name = some s ∧ s.counts.get? v.display = some n ∧ 0 < n := by
  obtain ⟨slot, hslot, rfl⟩ := List.mem_map.mp hr
  have hperm := (h.perm_cons_filter hslot).flatMap_right fun slot => shown slot.record.toEntry
  exact FieldStats.Tallies.removal_counted (h.stats.perm hperm) hsplit

end Holds

/-- What an index says about its records, after any history. -/
theorem figures_after (rules : IndexRules) (history : List Change) :
    Figures rules (after rules history) (live history) := by
  obtain ⟨slots, h, hlive⟩ := exists_holds rules history
  generalize after rules history = ix at h ⊢
  rw [← hlive]
  refine {
    size := ?_
    get := fun id r => h.get?_eq_some_iff
    removed := fun ids => ⟨ix.remove_count ids, ix.size_remove ids⟩
    total := rfl
    levels := ?_
    perLevel := fun level n => h.mem_levelCounts_iff
    files := ?_
    perFile := h.fileCounts_eq
    earliest := h.earliest_iff
    latest := h.latest_iff
    timeless := h.earliest_latest_eq_none
    terms := ?_
    names := fun now => ?_
    observed := fun now name => ?_
    cardinality := fun now s hs => ?_
    examples := fun now s hs => ?_
    lowered := fun r hr before name v later hsplit => h.lowered hr hsplit }
  · rw [h.size_eq, List.length_map]
  · show _ = ix.size
    rw [summary, sum_map_filter_ne_zero, sum_countP_level, List.length_map, Dict.values,
      List.length_map]
    rfl
  · show _ = ix.size
    rw [summary, Dict.sum_values_countAll, List.length_map, List.length_map, Dict.values,
      List.length_map]
    rfl
  · show ix.text.termCount = _
    rw [h.text, TextIndex.termCount_ofRecords]
  · rw [map_field_suggestions]
    exact Dict.keys_ascending ix.stats
  · rw [map_field_suggestions, h.tallies.mem_keys, mem_map_shownBy]
  · obtain ⟨stat, hcounts, hcard, -⟩ := h.mem_suggestions hs
    rw [hcard, hcounts, Dict.size_countAll]
  · obtain ⟨stat, hcounts, -, hexamples⟩ := h.mem_suggestions hs
    obtain ⟨ranking, hranking, htake⟩ := FieldStat.exists_ranking hcounts
    exact ⟨ranking, hranking, by rw [hexamples, htake]⟩

end LogIndex
end LogLens
