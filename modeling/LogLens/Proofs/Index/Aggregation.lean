/-
Counted values against field statistics.

Two ways lead to the values of a field.  Statistics take what an entry shows, name by name; filters
and counts look a name up in the entry.  For every name but that of the line number both come to the
same texts (`textsOf_shown`), so what statistics say about a field is what counting its values over
all records gives (`aggregate_agrees`).  Line numbers can be looked up and counted, and statistics
leave them out (`aggregate_line`).
-/
import LogLens.Proofs.Index.Summary
import LogLens.Proofs.Query.Facet

namespace LogLens

open Index Query

namespace Index

/-! ## One entry -/

/-- The text of the value that is found under a name. -/
def foundText? (name : String) (e : Entry) : Option String :=
  (e.field? name).map (·.display)

def labelled (name : String) (value : Option String) : List (String × FieldValue) :=
  (value.map fun s => (name, FieldValue.text s)).toList

/-- What an entry shows besides the fields of its own. -/
def standard (e : Entry) : List (String × FieldValue) :=
  [("timestamp", .date e.timestamp), ("level", .text e.level.name), ("message", .text e.message),
    ("file", .text e.file)] ++
  labelled "source" e.source ++ labelled "service" e.service ++ labelled "host" e.host

theorem observed_eq (e : Entry) : observed e = standard e ++
    e.fields.entries.filter fun f => !((standard e).any (·.1 == f.1)) := rfl

theorem filter_labelled (name name' : String) (value : Option String) :
    (labelled name' value).filter (·.1 = name) =
      if name' = name then labelled name' value else [] := by
  cases value with
  | none => simp [labelled]
  | some s => by_cases h : name' = name <;> simp [labelled, h]

/-- A field of its own counts when nothing else of the entry has its name. -/
theorem filter_observed (e : Entry) (name : String) :
    (observed e).filter (·.1 = name) =
      if (standard e).filter (·.1 = name) = [] then
        ((e.fields.get? name).map (name, ·)).toList
      else (standard e).filter (·.1 = name) := by
  rw [observed_eq, List.filter_append, List.filter_filter]
  by_cases h : (standard e).filter (·.1 = name) = []
  · rw [if_pos h, h, List.nil_append, ← Dict.filter_entries]
    refine List.filter_congr fun f _ => ?_
    by_cases hf : f.1 = name
    · have hnone := List.filter_eq_nil_iff.mp h
      simpa [hf] using hnone
    · simp [hf]
  · rw [if_neg h]
    obtain ⟨g, hg⟩ := List.exists_mem_of_ne_nil _ h
    rw [List.mem_filter, decide_eq_true_eq] at hg
    have hnil : e.fields.entries.filter
        (fun f => decide (f.1 = name) && !((standard e).any (·.1 == f.1))) = [] := by
      refine List.filter_eq_nil_iff.mpr fun f _ => ?_
      rw [Bool.and_eq_true, decide_eq_true_eq, Bool.not_eq_true']
      rintro ⟨rfl, hany⟩
      exact absurd (List.any_eq_false.mp hany g hg.1) (by simp [hg.2])
    rw [hnil, List.append_nil]

theorem filter_standard (e : Entry) (name : String) : (standard e).filter (·.1 = name) =
    ([("timestamp", .date e.timestamp), ("level", .text e.level.name), ("message", .text e.message),
      ("file", .text e.file)] : List (String × FieldValue)).filter (·.1 = name) ++
    (if "source" = name then labelled "source" e.source else []) ++
    (if "service" = name then labelled "service" e.service else []) ++
    (if "host" = name then labelled "host" e.host else []) := by
  simp only [standard, List.filter_append, filter_labelled]

/-- A label that is not set gives way to a field of its name. -/
theorem filter_observed_label {e : Entry} {name : String} {value : Option String}
    (hstandard : (standard e).filter (·.1 = name) = labelled name value)
    (hfield : e.field? name = e.label value name) :
    (observed e).filter (·.1 = name) = ((e.field? name).map (name, ·)).toList := by
  rw [filter_observed, hstandard, hfield]
  cases value with
  | none => rfl
  | some s => rfl

/-- A name that is not reserved is that of a field of its own. -/
theorem field?_eq_get? {e : Entry} {name : String} (h : name ∉ ["timestamp", "level", "message",
    "file", "source", "service", "host", "line"]) : e.field? name = e.fields.get? name := by
  simp only [List.mem_cons, List.not_mem_nil, or_false, not_or] at h
  obtain ⟨_, _, _, _, _, _, _, _⟩ := h
  unfold Entry.field?
  split <;> first | contradiction | rfl

/-- An entry shows under a name what is found under it. -/
theorem filter_observed_eq_field? (e : Entry) {name : String} (h : name ≠ "line") :
    (observed e).filter (·.1 = name) = ((e.field? name).map (name, ·)).toList := by
  by_cases hmem : name ∈ ["timestamp", "level", "message", "file", "source", "service", "host",
      "line"]
  · simp only [List.mem_cons, List.not_mem_nil, or_false] at hmem
    rcases hmem with rfl | rfl | rfl | rfl | rfl | rfl | rfl | rfl
    · rw [filter_observed, filter_standard]
      rfl
    · rw [filter_observed, filter_standard]
      rfl
    · rw [filter_observed, filter_standard]
      rfl
    · rw [filter_observed, filter_standard]
      rfl
    · exact filter_observed_label (by simp [filter_standard]) rfl
    · exact filter_observed_label (by simp [filter_standard]) rfl
    · exact filter_observed_label (by simp [filter_standard]) rfl
    · exact absurd rfl h
  · rw [field?_eq_get? hmem, filter_observed, filter_standard]
    simp only [List.mem_cons, List.not_mem_nil, or_false, not_or] at hmem
    obtain ⟨h1, h2, h3, h4, h5, h6, h7, -⟩ := hmem
    simp [Ne.symm h1, Ne.symm h2, Ne.symm h3, Ne.symm h4, Ne.symm h5, Ne.symm h6, Ne.symm h7]

/-! ## All entries -/

/-- There is neither a line number nor a field `line`, or both show the same text. -/
def LineAgrees (e : Entry) : Prop :=
  foundText? "line" e = (e.fields.get? "line").map (·.display)

instance (e : Entry) : Decidable (LineAgrees e) :=
  inferInstanceAs (Decidable (_ = _))

theorem textsOf_shown {e : Entry} {name : String} (h : name = "line" → LineAgrees e) :
    textsOf name (shown e) = (foundText? name e).toList := by
  have hmap : textsOf name (shown e) =
      ((observed e).filter (·.1 = name)).map fun f => f.2.display := by
    rw [textsOf, shown, List.filter_map, List.map_map]
    rfl
  rw [hmap]
  by_cases hline : name = "line"
  · subst hline
    rw [h rfl, filter_observed, filter_standard]
    cases e.fields.get? "line" <;> rfl
  · rw [filter_observed_eq_field? e hline, foundText?]
    cases e.field? name <;> rfl

/-- The texts under a name, one for each record that has a value there. -/
def foundTexts (name : String) (records : List Record) : List String :=
  records.filterMap fun r => foundText? name r.toEntry

theorem mem_foundTexts {name text : String} {records : List Record} :
    text ∈ foundTexts name records ↔ ∃ r ∈ records, foundText? name r.toEntry = some text :=
  List.mem_filterMap

theorem textsOf_shownBy {records : List Record} {name : String}
    (h : name = "line" → ∀ r ∈ records, LineAgrees r.toEntry) :
    textsOf name (LogIndex.shownBy records) = foundTexts name records := by
  induction records with
  | nil => rfl
  | cons r records ih =>
    have hrest := ih fun hname r' hr' => h hname r' (List.mem_cons_of_mem r hr')
    have hfirst := textsOf_shown fun hname => h hname r List.mem_cons_self
    have hsplit : textsOf name (LogIndex.shownBy (r :: records)) =
        textsOf name (shown r.toEntry) ++ textsOf name (LogIndex.shownBy records) := by
      rw [LogIndex.shownBy, List.flatMap_cons, textsOf, List.filter_append, List.map_append]
      rfl
    rw [hsplit, hfirst, hrest, foundTexts, foundTexts, List.filterMap_cons]
    cases foundText? name r.toEntry <;> rfl

/-! ## Counts -/

/-- The counted texts, the most frequent ones first and equally frequent ones in ascending order. -/
structure ByFrequency (counts : Dict String Nat) (ranking : List String) : Prop where
  perm : ranking.Perm counts.keys
  ordered : ranking.Pairwise fun a b => ∃ m n, counts.get? a = some m ∧ counts.get? b = some n ∧
    (n < m ∨ n = m ∧ a < b)

theorem Ranking.byFrequency {texts ranking : List String} (h : Ranking texts ranking) :
    ByFrequency (Dict.countAll texts) ranking := by
  refine ⟨h.perm.trans (Dict.keys_countAll_perm texts).symm, ?_⟩
  have hmem : ∀ a ∈ ranking, a ∈ texts := fun a ha => List.mem_dedup.mp (h.perm.mem_iff.mp ha)
  refine h.ordered.imp_of_mem fun {a b} ha hb hab => ?_
  refine ⟨texts.count a, texts.count b, ?_, ?_, hab.imp id fun heq => ⟨heq.1.symm, heq.2⟩⟩
  · rw [Dict.get?_countAll, if_pos (hmem a ha)]
  · rw [Dict.get?_countAll, if_pos (hmem b hb)]

end Index

namespace LogIndex

theorem entries_aggregate (records : List Record) (field : String) :
    (aggregate records [field]).entries =
      [(field, Dict.countAll (foundTexts field records))] := rfl

/-! ## Searches that restrict nothing -/

/-- The query has no words and no filters, and its range of time holds all the records. -/
structure Unrestricted (q : SearchQuery) (records : List Record) : Prop where
  wordless : splitTerms q.text = []
  unfiltered : q.filters = []
  timeless : ∀ r ∈ records, q.timeRange.contains r.timestamp = true

/-- All of time holds the records up to the last instant that is no leap second. -/
theorem unrestricted_all {records : List Record} (h : ∀ r ∈ records, r.timestamp ≤ Instant.latest)
    (fields : List String) : Unrestricted { aggregateBy := fields } records where
  wordless := (by decide : splitTerms "" = [])
  unfiltered := rfl
  timeless := by
    intro r hr
    have hfirst := r.timestamp.first_le
    have hearliest : Instant.earliest ≤ r.timestamp := by
      rcases Int.lt_or_eq_of_le hfirst with hlt | heq
      · exact Or.inl hlt
      · exact Or.inr ⟨heq, Nat.zero_le _⟩
    simp [TimeRange.contains, TimeRange.all, hearliest, h r hr]

theorem Unrestricted.termless {q : SearchQuery} {records : List Record}
    (h : Unrestricted q records) : termsOf q.text = [] := by
  rw [termsOf, h.wordless]
  rfl

/-- Other filters in place of none leave the filters as the only restriction. -/
theorem Unrestricted.matches {q : SearchQuery} {records : List Record} (h : Unrestricted q records)
    (rules : IndexRules) (now : Instant) {r : Record} (hr : r ∈ records) {filters : List Filter}
    (hfilters : ∀ f ∈ filters, Match.passes now q.caseSensitive r.toEntry f = true) :
    Matches rules { q with filters, limit := none } now r where
  inTime := by
    have htime := h.timeless r hr
    rwa [TimeRange.contains, Bool.and_eq_true, decide_eq_true_eq, decide_eq_true_eq] at htime
  filters := hfilters
  words := by
    intro word hword
    exact absurd (h.termless ▸ hword) List.not_mem_nil
  verbatim := by
    intro _ _ word hword
    exact absurd (h.wordless ▸ hword) List.not_mem_nil

/-! ## Suggestions against counts -/

/-- What an index says about a field fits the counts of its values. -/
structure Suggests (rules : IndexRules) (ix : LogIndex) (field : String)
    (counts : Dict String Nat) : Prop where
  listed : ∀ now, field ∈ (ix.suggestions now).map (·.field) ↔ counts.isEmpty = false
  cardinality : ∀ now, ∀ s ∈ ix.suggestions now, s.field = field → s.cardinality = counts.size
  examples : ∀ now, ∀ s ∈ ix.suggestions now, s.field = field →
    ∃ ranking, ByFrequency counts ranking ∧ s.examples = ranking.take rules.maxExamples

namespace Holds

variable {rules : IndexRules} {ix : LogIndex} {slots : List Slot}

/-- A search that restricts nothing counts all the records. -/
theorem exists_aggregated (h : Holds rules ix slots) {q : SearchQuery}
    (hq : Unrestricted q (slots.map (·.record))) {field : String} (hfield : q.aggregateBy = [field])
    (now : Instant) :
    ∃ result aggregations, ix.search? q now = .ok result ∧
      result.aggregations = some aggregations ∧ aggregations.entries =
        [(field, Dict.countAll (foundTexts field (slots.map (·.record))))] := by
  have hall : ((slots.map (·.record)).filter fun r => (score? rules q now r).isSome) =
      slots.map (·.record) := by
    refine List.filter_eq_self.mpr fun r hr => isSome_score?_iff.mpr ?_
    have hmatches := hq.matches rules now hr (List.forall_mem_nil fun f =>
      Match.passes now q.caseSensitive r.toEntry f = true)
    exact { hmatches with filters := by simp [hq.unfiltered] }
  obtain ⟨hits, hhits, -⟩ := h.exists_hits now (numericScores_of_wordless hq.termless)
  have hperm := h.ranked_records_perm (.refl _) hhits
  rw [hall] at hperm
  let found := hits.map (·.slot.record)
  refine ⟨answer q found, aggregate found [field], h.searchAlong?_of_ranked hhits,
    by simp [answer, hfield], ?_⟩
  rw [entries_aggregate, foundTexts, Dict.countAll_perm (hperm.filterMap _)]
  rfl

theorem suggests (h : Holds rules ix slots) {field : String}
    (hline : field = "line" → ∀ r ∈ slots.map (·.record), LineAgrees r.toEntry) :
    Suggests rules ix field (Dict.countAll (foundTexts field (slots.map (·.record)))) := by
  have htexts := textsOf_shownBy hline
  refine ⟨fun now => ?_, fun now s hs hname => ?_, fun now s hs hname => ?_⟩
  · rw [map_field_suggestions, h.tallies.mem_keys, Bool.eq_false_iff, ne_eq,
      Dict.countAll_eq_empty_iff, ← htexts]
    constructor
    · intro hmem
      obtain ⟨p, hp, rfl⟩ := List.mem_map.mp hmem
      exact List.ne_nil_of_mem (mem_textsOf.mpr hp)
    · intro hne
      obtain ⟨text, htext⟩ := List.exists_mem_of_ne_nil _ hne
      exact List.mem_map.mpr ⟨(field, text), mem_textsOf.mp htext, rfl⟩
  · obtain ⟨stat, hcounts, hcard, -⟩ := h.mem_suggestions hs
    rw [hcard, hcounts, hname, htexts]
  · obtain ⟨stat, hcounts, -, hexamples⟩ := h.mem_suggestions hs
    rw [hname, htexts] at hcounts
    obtain ⟨ranking, hranking, htake⟩ := FieldStat.exists_ranking hcounts
    exact ⟨ranking, hranking.byFrequency, by rw [hexamples, htake]⟩

end Holds

/-- What an index suggests about a field is what a search that restricts nothing counts for it: the
field is suggested when something is counted, with as many values, and its examples are the most
frequent ones.  A filter on an example finds a record that shows it. -/
theorem aggregate_agrees (rules : IndexRules) (history : List Change) {field : String}
    (hline : field = "line" → ∀ r ∈ live history, LineAgrees r.toEntry) {q : SearchQuery}
    (hq : Unrestricted q (live history)) (hfield : q.aggregateBy = [field]) (now : Instant) :
    ∃ result aggregations counts, (after rules history).search? q now = .ok result ∧
      result.aggregations = some aggregations ∧ aggregations.entries = [(field, counts)] ∧
      counts = Dict.countAll (foundTexts field (live history)) ∧
      Suggests rules (after rules history) field counts ∧
      ∀ s ∈ (after rules history).suggestions now, s.field = field → ∀ text ∈ s.examples,
        ∀ v, coerce text now = .ok v →
        (∀ r ∈ live history, ∀ n, r.toEntry.field? field = some (.number n) →
          n.isFinite = true → parseNumber? (Notation.plain n) = some n) →
        ∃ found, (after rules history).search?
            { q with filters := [⟨field, .equals, .scalar v, false⟩], limit := none } now =
              .ok found ∧
          ∃ r ∈ found.records, foundText? field r.toEntry = some text := by
  obtain ⟨slots, h, hlive⟩ := exists_holds rules history
  rw [← hlive] at hline hq ⊢
  obtain ⟨result, aggregations, hresult, haggregations, hentries⟩ :=
    h.exists_aggregated hq hfield now
  have hsuggests := h.suggests hline
  refine ⟨result, aggregations, _, hresult, haggregations, hentries, rfl, hsuggests, ?_⟩
  intro s hs hname text htext v hv hround
  obtain ⟨ranking, hranking, hexamples⟩ := hsuggests.examples now s hs hname
  rw [hexamples] at htext
  have hkey := hranking.perm.mem_iff.mp (List.mem_of_mem_take htext)
  obtain ⟨r, hr, hfound⟩ := mem_foundTexts.mp (Dict.mem_keys_countAll.mp hkey)
  obtain ⟨x, hx, rfl⟩ := Option.map_eq_some_iff.mp hfound
  have hpasses : Match.passes now q.caseSensitive r.toEntry
      ⟨field, .equals, .scalar v, false⟩ = true :=
    Match.passes_display hx (fun n hn => hround r hr n (hn ▸ hx)) hv
  obtain ⟨records, hrecords⟩ := exists_searchesFor rules history
    (q := { q with filters := [⟨field, .equals, .scalar v, false⟩], limit := none }) rfl now
  obtain ⟨found, hsearch, hperm, -⟩ :=
    hrecords.exists_answer (Or.inr fun r' _ => textScore_ne_nan hq.termless r')
  refine ⟨found, hsearch, r, hperm.mem_iff.mpr ((hrecords.mem_iff r).mpr
    ⟨hlive ▸ hr, hq.matches rules now hr ?_⟩), hfound⟩
  intro f hf
  rw [List.mem_singleton.mp hf]
  exact hpasses

/-- Of three services two are named by the label, and one by a field in the place of a label. -/
theorem aggregate_agrees_service :
    let api : Record :=
      { timestamp := Instant.latest, level := .info, message := "up", file := "a.log", raw := "up",
        service := some "api", id := 1 }
    let db : Record :=
      { api with service := none, fields := Dict.ofList [("service", .text "db")], id := 2 }
    let history : List Change := [.add [db, api, { api with id := 3 }], .remove [4]]
    ∃ result aggregations counts,
      (after {} history).search? { aggregateBy := ["service"], limit := some 1 } Instant.earliest =
        .ok result ∧
      result.aggregations = some aggregations ∧ aggregations.entries = [("service", counts)] ∧
      counts.entries = [("api", 2), ("db", 1)] ∧
      Suggests {} (after {} history) "service" counts := by
  intro api db history
  have hq : Unrestricted { aggregateBy := ["service"], limit := some 1 } (live history) :=
    { unrestricted_all (by decide) ["service"] with }
  obtain ⟨result, aggregations, counts, hresult, haggregations, hentries, hcounts, hsuggests, -⟩ :=
    aggregate_agrees {} history (by decide) hq rfl Instant.earliest
  exact ⟨result, aggregations, counts, hresult, haggregations, hentries,
    hcounts ▸ by decide +kernel, hsuggests⟩

/-- The number of a line is found and counted, and no statistics are kept of it. -/
theorem aggregate_line :
    let r : Record :=
      { timestamp := Instant.latest, level := .info, message := "up", file := "a.log", raw := "up",
        line := some 1, id := 1 }
    Unrestricted { aggregateBy := ["line"] } (live [.add [r]]) ∧
      (∃ result counts,
        (after {} [.add [r]]).search? { aggregateBy := ["line"] } Instant.earliest = .ok result ∧
        result.aggregations = some (Dict.ofList [("line", counts)]) ∧
        counts.entries = [("1", 1)]) ∧
      "line" ∉ ((after {} [.add [r]]).suggestions Instant.earliest).map (·.field) := by
  intro r
  refine ⟨unrestricted_all (by decide) ["line"], ?_, by decide +kernel⟩
  have hcounts : aggregate [r] ["line"] = Dict.ofList [("line", Dict.countAll ["1"])] := by
    decide +kernel
  have hsearch : (after {} [.add [r]]).search? { aggregateBy := ["line"] } Instant.earliest =
      .ok { records := [r], total := 1, aggregations := some (aggregate [r] ["line"]) } := by
    decide +kernel
  exact ⟨_, Dict.countAll ["1"], hsearch, congrArg some hcounts, by decide⟩

end LogIndex
end LogLens
