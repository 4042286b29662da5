/-
Limits and counted fields.

A limit cuts the list of records and leaves the rest of an answer alone: the total and the counts
are those of all the records that match (`limit_cuts_records`).  Every field that is asked for has
counts of its own, however often it is named, and a value is counted once for each record that
shows it there, so the counts of a field add up to the records that have it (`CountsFields`).
-/
import LogLens.Proofs.Index.Aggregation

namespace LogLens

open Index Query

namespace LogIndex

/-! ## Counted fields -/

/-- The counts have an entry for each field that is named and for no other, and the entry of a field
holds every value that some of the records show, with the number of these records. -/
structure CountsFields (records : List Record) (fields : List String) (a : Aggregations) :
    Prop where
  keys : ∀ field, field ∈ a.keys ↔ field ∈ fields
  counted : ∀ field counts, a.get? field = some counts → ∀ text n, counts.get? text = some n ↔
    0 < n ∧ n = records.countP fun r => foundText? field r.toEntry = some text
  sum : ∀ field counts, a.get? field = some counts →
    counts.values.sum = records.countP fun r => (r.toEntry.field? field).isSome

/-- A name that is given twice has the same counts both times. -/
theorem get?_aggregate (records : List Record) (fields : List String) (field : String) :
    (aggregate records fields).get? field =
      if field ∈ fields then some (Dict.countAll (foundTexts field records)) else none := by
  let pair (name : String) := (name, Dict.countAll (foundTexts name records))
  have hfind : ((fields.map pair).reverse.find? fun p => p.1 = field).map (·.2) =
      ((fields.reverse.find? (· = field)).map fun name =>
        Dict.countAll (foundTexts name records)) := by
    rw [← List.map_reverse, List.find?_map, Option.map_map]
    rfl
  refine (Dict.get?_ofList (fields.map pair) field).trans (hfind.trans ?_)
  by_cases hmem : field ∈ fields
  · obtain ⟨name, hname⟩ := Option.isSome_iff_exists.mp
      (List.find?_isSome.mpr ⟨field, List.mem_reverse.mpr hmem, decide_eq_true rfl⟩ :
        (fields.reverse.find? (· = field)).isSome = true)
    obtain rfl : name = field := by simpa using List.find?_some hname
    rw [if_pos hmem, hname, Option.map_some]
  · have hnone : fields.reverse.find? (· = field) = none := by
      rw [List.find?_eq_none]
      rintro name hname heq
      exact hmem (decide_eq_true_eq.mp heq ▸ List.mem_reverse.mp hname)
    rw [if_neg hmem, hnone, Option.map_none]

theorem count_foundTexts (records : List Record) (field text : String) :
    (foundTexts field records).count text =
      records.countP fun r => foundText? field r.toEntry = some text := by
  rw [foundTexts, List.count_filterMap]
  exact List.countP_congr fun r _ => by simp

theorem length_foundTexts (records : List Record) (field : String) :
    (foundTexts field records).length =
      records.countP fun r => (r.toEntry.field? field).isSome := by
  rw [foundTexts, List.length_filterMap_eq_countP]
  exact List.countP_congr fun r _ => by rw [foundText?, Option.isSome_map]

theorem countsFields_aggregate (records : List Record) (fields : List String) :
    CountsFields records fields (aggregate records fields) := by
  have hcounts : ∀ {field counts}, (aggregate records fields).get? field = some counts →
      counts = Dict.countAll (foundTexts field records) := by
    intro field counts hget
    rw [get?_aggregate] at hget
    split at hget
    · exact (Option.some.inj hget).symm
    · exact absurd hget (by simp)
  refine ⟨fun field => ?_, fun field counts hget text n => ?_, fun field counts hget => ?_⟩
  · rw [Dict.mem_keys_iff]
    simp only [get?_aggregate]
    by_cases hmem : field ∈ fields <;> simp [hmem]
  · rw [hcounts hget, Dict.get?_countAll, ← count_foundTexts]
    by_cases hmem : text ∈ foundTexts field records
    · have hpos := List.count_pos_iff.mpr hmem
      rw [if_pos hmem, Option.some.injEq]
      constructor
      · rintro rfl
        exact ⟨hpos, rfl⟩
      · exact fun h => h.2.symm
    · rw [if_neg hmem, List.count_eq_zero_of_not_mem hmem]
      simp only [reduceCtorEq, false_iff, not_and]
      omega
  · rw [hcounts hget, Dict.sum_values_countAll, length_foundTexts]

/-! ## Limits -/

/-- A limit cuts the records of an answer, in whatever order the slots are walked.  The total and
the counts are those of all the records that match. -/
theorem limit_cuts_records (rules : IndexRules) (history : List Change) (q : SearchQuery) (n : Nat)
    (now : Instant) :
    let ix := after rules history
    (∃ found, SearchesFor rules history { q with limit := none } now found) ∧
    ∀ walk, walk.Perm ix.slots.values →
      (ix.searchAlong? { q with limit := some n } now walk =
        (ix.searchAlong? { q with limit := none } now walk).map fun whole =>
          { whole with records := whole.records.take n }) ∧
      ∀ whole, ix.searchAlong? { q with limit := none } now walk = .ok whole →
        (q.aggregateBy = [] → whole.aggregations = none) ∧
        (q.aggregateBy ≠ [] → ∃ aggregations, whole.aggregations = some aggregations ∧
          CountsFields whole.records q.aggregateBy aggregations) := by
  intro ix
  refine ⟨exists_searchesFor rules history rfl now, fun walk _ => ?_⟩
  obtain ⟨slots, h, -⟩ := exists_holds rules history
  -- the hits, and the order that they are in, do not depend on the limit
  have hcut := h.searchAlong?_eq { q with limit := some n } now walk
  have hall := h.searchAlong?_eq { q with limit := none } now walk
  have hsame : ranked { q with limit := some n } now (ix.text.search? q.text q.fuzzy) walk =
      ranked { q with limit := none } now (ix.text.search? q.text q.fuzzy) walk := rfl
  rw [hcut, hall, hsame]
  cases ranked { q with limit := none } now (ix.text.search? q.text q.fuzzy) walk with
  | error e => exact ⟨rfl, fun whole h => by cases h⟩
  | ok hits =>
    refine ⟨rfl, fun whole hwhole => ?_⟩
    cases hwhole
    constructor
    · intro hnone
      simp [answer, hnone]
    · intro hsome
      refine ⟨aggregate (hits.map (·.slot.record)) q.aggregateBy, ?_, countsFields_aggregate _ _⟩
      simp [answer, hsome]

end LogIndex
end LogLens
