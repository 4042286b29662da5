/-
What a search looks for, and what it sorts.

`Matches` says what a query asks of one record, in terms of the record and the rules alone, and
`score?` is the score of a record that fulfils it.  The walk over the slots gives every live record
this score, so the hits that a search has to sort are the live records that match, each of them
once; and since the text index lists no other records, the sort is all that an answer depends on.
-/
import LogLens.Proofs.Index.History
import LogLens.Proofs.Index.Scores

namespace LogLens

open Index Query

theorem occursIn_iff {α : Type} [BEq α] [LawfulBEq α] {needle l : List α} :
    occursIn needle l = true ↔ needle <:+: l := by
  induction l with
  | nil => rw [occursIn, List.isEmpty_iff, List.infix_nil]
  | cons c l ih =>
    rw [occursIn, Bool.or_eq_true, ih, List.isPrefixOf_iff_prefix, List.infix_cons_iff]

namespace LogIndex

/-! ## What a query asks of a record -/

/-- The record is one that the query asks for at the time `now`. -/
structure Matches (rules : IndexRules) (q : SearchQuery) (now : Instant) (r : Record) : Prop where
  inTime : q.timeRange.start ≤ r.timestamp ∧ r.timestamp ≤ q.timeRange.finish
  filters : ∀ f ∈ q.filters, Match.passes now q.caseSensitive r.toEntry f = true
  /-- Every word finds a term of an indexed text. -/
  words : ∀ word ∈ termsOf q.text, ∃ field s, TextField.text? field r.toEntry = some s ∧
    ∃ term ∈ termsOf s, Finds rules q.fuzzy word term
  /-- If case matters and words are not approximate, every word stands in an indexed text. -/
  verbatim : q.caseSensitive = true → q.fuzzy = false → ∀ word ∈ splitTerms q.text,
    ∃ field s, TextField.text? field r.toEntry = some s ∧ word.toList <:+: s.toList

theorem words_iff {rules : IndexRules} {q : SearchQuery} {r : Record} :
    (∀ word ∈ termsOf q.text, ∃ field s, TextField.text? field r.toEntry = some s ∧
      ∃ term ∈ termsOf s, Finds rules q.fuzzy word term) ↔
    ∀ word ∈ termsOf q.text, ∃ term ∈ termsOfEntry r.toEntry, Finds rules q.fuzzy word term := by
  refine forall₂_congr fun word _ => ?_
  constructor
  · intro h
    obtain ⟨field, s, hs, term, hterm, hfinds⟩ := h
    exact ⟨term, mem_termsOfEntry.mpr ⟨field, s, hs, hterm⟩, hfinds⟩
  · intro h
    obtain ⟨term, hterm, hfinds⟩ := h
    obtain ⟨field, s, hs, hterm⟩ := mem_termsOfEntry.mp hterm
    exact ⟨field, s, hs, term, hterm, hfinds⟩

theorem containsVerbatim_iff {e : Entry} {words : List String} :
    containsVerbatim e words = true ↔
      ∀ word ∈ words, ∃ field s, TextField.text? field e = some s ∧ word.toList <:+: s.toList := by
  rw [containsVerbatim, List.all_eq_true]
  refine forall₂_congr fun word _ => ?_
  rw [List.any_eq_true]
  constructor
  · intro h
    obtain ⟨field, -, h⟩ := h
    cases hs : field.text? e with
    | none => simp [hs] at h
    | some s => exact ⟨field, s, hs, occursIn_iff.mp (by simpa [hs] using h)⟩
  · intro h
    obtain ⟨field, s, hs, h⟩ := h
    exact ⟨field, field.mem_all, by simpa [hs] using occursIn_iff.mpr h⟩

/-- The tests that a search makes before it looks at the words. -/
def passesTests (q : SearchQuery) (now : Instant) (e : Entry) : Bool :=
  q.timeRange.contains e.timestamp && Match.passesAll now q.caseSensitive e q.filters &&
    containsVerbatim e (verbatimTerms q)

theorem matches_iff {rules : IndexRules} {q : SearchQuery} {now : Instant} {r : Record} :
    Matches rules q now r ↔ passesTests q now r.toEntry = true ∧
      ∀ word ∈ termsOf q.text, ∃ term ∈ termsOfEntry r.toEntry, Finds rules q.fuzzy word term := by
  have hverbatim : containsVerbatim r.toEntry (verbatimTerms q) = true ↔
      (q.caseSensitive = true → q.fuzzy = false → ∀ word ∈ splitTerms q.text,
        ∃ field s, TextField.text? field r.toEntry = some s ∧ word.toList <:+: s.toList) := by
    rw [containsVerbatim_iff, verbatimTerms]
    cases q.caseSensitive <;> cases q.fuzzy <;> simp
  rw [passesTests, Bool.and_eq_true, Bool.and_eq_true, hverbatim, TimeRange.contains,
    Bool.and_eq_true, decide_eq_true_eq, decide_eq_true_eq, Match.passesAll, List.all_eq_true,
    ← words_iff]
  constructor
  · intro h
    exact ⟨⟨⟨h.inTime, h.filters⟩, h.verbatim⟩, h.words⟩
  · intro h
    exact ⟨h.1.1.1, h.1.1.2, h.2, h.1.2⟩

/-- What the words of a query give to a record, from the record, the rules and the query alone. -/
def textScore (rules : IndexRules) (q : SearchQuery) (r : Record) : Option Binary64 :=
  if termsOf q.text = [] then some Binary64.zero
  else TextIndex.ownScore rules q.text q.fuzzy r

/-- The score of a record that the query asks for. -/
def score? (rules : IndexRules) (q : SearchQuery) (now : Instant) (r : Record) :
    Option Binary64 :=
  if passesTests q now r.toEntry then textScore rules q r else none

theorem isSome_ownScore {rules : IndexRules} {text : String} {fuzzy : Bool} {r : Record}
    (h : termsOf text ≠ []) :
    (TextIndex.ownScore rules text fuzzy r).isSome = true ↔
      ∀ word ∈ termsOf text, ∃ term ∈ termsOfEntry r.toEntry, Finds rules fuzzy word term := by
  have hsome : (TextIndex.ofRecords rules [r]).search? text fuzzy ≠ none :=
    mt TextIndex.search?_eq_none_iff.mp h
  obtain ⟨scores, hs⟩ := Option.ne_none_iff_exists'.mp hsome
  rw [TextIndex.ownScore, hs, Option.bind_some, TextIndex.isSome_get?_search? (by simp) hs]
  simp

theorem isSome_score?_iff {rules : IndexRules} {q : SearchQuery} {now : Instant} {r : Record} :
    (score? rules q now r).isSome = true ↔ Matches rules q now r := by
  rw [matches_iff, score?]
  by_cases htests : passesTests q now r.toEntry = true
  · rw [if_pos htests, textScore]
    by_cases hwords : termsOf q.text = []
    · simp [hwords, htests]
    · rw [if_neg hwords, isSome_ownScore hwords]
      simp [htests]
  · simp [htests]

/-! ## What a walk over the slots finds -/

namespace Holds

variable {rules : IndexRules} {ix : LogIndex} {slots : List Slot}

theorem values_perm (h : Holds rules ix slots) : ix.slots.values.Perm slots := by
  have hid : ∀ e ∈ ix.slots.entries, e.1 = e.2.record.id := by
    intro e he
    exact ((h.held e.1 e.2).mp (Dict.get?_eq_some_iff.mpr he)).2.symm
  have hkeys : ix.slots.values.map (·.record.id) = ix.slots.keys := by
    rw [Dict.values, Dict.keys, List.map_map]
    exact List.map_congr_left fun e he => (hid e he).symm
  have hnodup : ix.slots.values.Nodup := List.Nodup.of_map _ (hkeys ▸ ix.slots.keys_nodup)
  refine (List.perm_ext_iff_of_nodup hnodup h.distinct.of_map).mpr fun slot => ?_
  rw [Dict.mem_values_iff]
  constructor
  · intro hslot
    obtain ⟨id, hget⟩ := hslot
    exact ((h.held id slot).mp hget).1
  · intro hslot
    exact ⟨slot.record.id, (h.held _ slot).mpr ⟨hslot, rfl⟩⟩

/-- A slot gets the score of its record, whatever other slots there are. -/
theorem hit?_eq (h : Holds rules ix slots) (q : SearchQuery) (now : Instant) {slot : Slot}
    (hslot : slot ∈ slots) :
    hit? q now (ix.text.search? q.text q.fuzzy) slot =
      (score? rules q now slot.record).map fun score => ⟨slot, score⟩ := by
  show (if passesTests q now slot.record.toEntry = true then _ else none) = _
  rw [score?]
  by_cases htests : passesTests q now slot.record.toEntry = true
  · rw [if_pos htests, if_pos htests, textScore]
    cases hs : ix.text.search? q.text q.fuzzy with
    | none =>
      rw [if_pos (TextIndex.search?_eq_none_iff.mp hs)]
      rfl
    | some scores =>
      rw [h.text] at hs
      rw [if_neg (TextIndex.termsOf_ne_nil hs),
        ← TextIndex.get?_search?_own rules h.distinct_ids hs (List.mem_map_of_mem hslot)]
  · rw [if_neg htests, if_neg htests]
    rfl

/-- Before they are sorted, the hits are those of the live records that have a score. -/
theorem hits_perm (h : Holds rules ix slots) (q : SearchQuery) (now : Instant) {walk : List Slot}
    (hwalk : walk.Perm ix.slots.values) :
    ((walk.filterMap (hit? q now (ix.text.search? q.text q.fuzzy))).map (·.slot.record)).Perm
      ((slots.map (·.record)).filter fun r => (score? rules q now r).isSome) := by
  have hscored : (slots.filterMap (hit? q now (ix.text.search? q.text q.fuzzy))).map
      (·.slot.record) = (slots.map (·.record)).filter fun r => (score? rules q now r).isSome := by
    rw [List.map_filterMap, ← List.filterMap_eq_filter, List.filterMap_map]
    refine List.filterMap_congr fun slot hslot => ?_
    rw [h.hit?_eq q now hslot, Function.comp_apply]
    cases hscore : score? rules q now slot.record <;> simp [Option.guard, hscore]
  exact hscored ▸ ((hwalk.trans h.values_perm).filterMap _).map _

/-- The text index lists held records only, so a search answers as soon as its hits are sorted. -/
theorem searchAlong?_eq (h : Holds rules ix slots) (q : SearchQuery) (now : Instant)
    (walk : List Slot) : ix.searchAlong? q now walk =
      ((ranked q now (ix.text.search? q.text q.fuzzy) walk).map fun hits =>
        answer q (hits.map (·.slot.record))).mapError fun _ => .unordered := by
  have hheld : ((ix.text.search? q.text q.fuzzy).map (·.keys)).bind
      (fun ids => ids.find? fun id => !ix.slots.contains id) = none := by
    cases hs : ix.text.search? q.text q.fuzzy with
    | none => rfl
    | some scores =>
      rw [Option.map_some, Option.bind_some, List.find?_eq_none]
      intro id hid
      obtain ⟨score, hscore⟩ := Dict.mem_keys_iff.mp hid
      rw [h.text] at hs
      obtain ⟨r, hr, rfl, -⟩ := (TextIndex.isSome_get?_search? h.distinct_ids hs).mp
        (Option.isSome_iff_exists.mpr ⟨score, hscore⟩)
      obtain ⟨slot, hslot, rfl⟩ := List.mem_map.mp hr
      have hget := (h.held _ slot).mpr ⟨hslot, rfl⟩
      simp [Dict.contains_iff.mpr ⟨slot, hget⟩]
  simp only [searchAlong?, hheld]
  cases ranked q now (ix.text.search? q.text q.fuzzy) walk <;> rfl

theorem searchAlong?_of_ranked (h : Holds rules ix slots) {q : SearchQuery} {now : Instant}
    {walk : List Slot} {hits : List Hit}
    (hhits : ranked q now (ix.text.search? q.text q.fuzzy) walk = .ok hits) :
    ix.searchAlong? q now walk = .ok (answer q (hits.map (·.slot.record))) := by
  rw [h.searchAlong?_eq, hhits]
  rfl

end Holds

end LogIndex
end LogLens
