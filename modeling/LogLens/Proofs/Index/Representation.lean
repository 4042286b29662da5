/-
How an index represents the records that are live.

The text index keeps two tables, and the slots a third one and a counter.  After any history each of
them is settled by the live records in the order in which they were added last (`Represents`): the
postings of a term count its occurrences attribute by attribute, the terms written down for a record
are its terms, and the numbers of the slots ascend.
-/
import LogLens.Proofs.Index.Ranking
import LogLens.Proofs.Index.Summary

namespace LogLens
namespace Index

/-- The record of one posting was added before that of the other, or both belong to one record and
the attribute of the first comes first. -/
def Posting.Before (records : List Record) (p q : Posting) : Prop :=
  (∃ a b, [a, b].Sublist records ∧ a.id = p.id ∧ b.id = q.id) ∨
    p.id = q.id ∧ [p.field, q.field].Sublist TextField.all

namespace TextIndex

/-! ## Postings of one record -/

/-- Each attribute of a record has one posting at most. -/
theorem occurrencesOf_eq (term : String) (r : Record) :
    occurrencesOf term r = TextField.all.filterMap fun field =>
      ((fieldCounts r.toEntry field).get? term).map fun n => ⟨r.id, field, n⟩ := by
  rw [occurrencesOf, occurrences, List.filter_flatMap, List.map_flatMap,
    List.filterMap_eq_flatMap_toList]
  refine List.flatMap_congr fun field _ => ?_
  have hone := (fieldCounts r.toEntry field).filter_entries term
  rw [List.filter_map, List.map_map]
  calc ((fieldCounts r.toEntry field).entries.filter (·.1 = term)).map
        (fun e => (⟨r.id, field, e.2⟩ : Posting))
      = (((fieldCounts r.toEntry field).get? term).map (term, ·)).toList.map
        (fun e => ⟨r.id, field, e.2⟩) := by rw [hone]
    _ = _ := by cases (fieldCounts r.toEntry field).get? term <;> rfl

theorem pairwise_occurrencesOf (term : String) (r : Record) :
    (occurrencesOf term r).Pairwise fun p q =>
      p.id = q.id ∧ [p.field, q.field].Sublist TextField.all := by
  have hall : TextField.all.Pairwise fun f g => [f, g].Sublist TextField.all :=
    List.pairwise_iff_forall_sublist.mpr fun h => h
  rw [occurrencesOf_eq]
  refine List.Pairwise.filterMap _ (fun f g hfg p hp q hq => ?_) hall
  obtain ⟨-, -, rfl⟩ := Option.map_eq_some_iff.mp hp
  obtain ⟨-, -, rfl⟩ := Option.map_eq_some_iff.mp hq
  exact ⟨rfl, hfg⟩

/-- A posting counts occurrences, and an attribute without the term has none. -/
theorem mem_occurrencesOf_iff {term : String} {r : Record} {p : Posting} :
    p ∈ occurrencesOf term r ↔ p.id = r.id ∧ 0 < p.count ∧
      ∃ s, p.field.text? r.toEntry = some s ∧ p.count = (termsOf s).count term := by
  rw [mem_occurrencesOf, mem_occurrences]
  refine and_congr_right fun _ => ?_
  constructor
  · rintro ⟨s, hs, hterm, hcount⟩
    exact ⟨hcount ▸ List.count_pos_iff.mpr hterm, s, hs, hcount⟩
  · rintro ⟨hpos, s, hs, hcount⟩
    exact ⟨s, hs, List.count_pos_iff.mp (hcount ▸ hpos), hcount⟩

/-! ## Postings of all records -/

variable {records : List Record}

theorem pairwise_postings (records : List Record) (term : String) :
    (records.flatMap (occurrencesOf term)).Pairwise (Posting.Before records) := by
  rw [List.pairwise_flatMap]
  constructor
  · intro r _
    exact (pairwise_occurrencesOf term r).imp Or.inr
  · refine List.pairwise_iff_forall_sublist.mpr fun {a b} hab p hp q hq => ?_
    exact Or.inl ⟨a, b, hab, (id_of_mem_occurrencesOf hp).symm, (id_of_mem_occurrencesOf hq).symm⟩

/-- Two postings in order belong to different records or to different attributes. -/
theorem ne_of_before (h : (records.map (·.id)).Nodup) {p q : Posting}
    (hbefore : Posting.Before records p q) : (p.id, p.field) ≠ (q.id, q.field) := by
  intro heq
  obtain ⟨hid, hfield⟩ := Prod.mk.inj heq
  rcases hbefore with ⟨a, b, hab, ha, hb⟩ | ⟨-, hfields⟩
  · have hne := List.pairwise_iff_forall_sublist.mp (List.pairwise_map.mp h) hab
    exact hne (ha.trans (hid.trans hb.symm))
  · have hall : TextField.all.Nodup := by decide
    exact List.pairwise_iff_forall_sublist.mp hall hfields hfield

theorem find?_of_mem (h : (records.map (·.id)).Nodup) {r : Record} (hr : r ∈ records) :
    records.reverse.find? (fun r' => r'.id = r.id) = some r := by
  have hfound : (records.reverse.find? fun r' => r'.id = r.id).isSome = true :=
    List.find?_isSome.mpr ⟨r, List.mem_reverse.mpr hr, by simp⟩
  obtain ⟨r', hr'⟩ := Option.isSome_iff_exists.mp hfound
  have hmem := List.mem_reverse.mp (List.mem_of_find?_eq_some hr')
  rw [hr', eq_of_id_eq h hmem hr (by simpa using List.find?_some hr')]

theorem mem_keys_termsByRecord (rules : IndexRules) {id : RecordId} :
    id ∈ (ofRecords rules records).termsByRecord.keys ↔ ∃ r ∈ records, r.id = id := by
  rw [Dict.mem_keys_iff, ← Option.isSome_iff_exists, get?_termsByRecord, Option.isSome_map,
    List.find?_isSome]
  simp only [List.mem_reverse, decide_eq_true_eq]

theorem recordTerms_ascending (r : Record) : (recordTerms r).Pairwise (· < ·) :=
  Dict.keys_ascending _

end TextIndex
end Index

namespace LogIndex

open Index

/-! ## Indexes -/

/-- The tables of an index hold the given records, which were added in this order, and nothing
else. -/
structure Represents (ix : LogIndex) (records : List Record) : Prop where
  held : ∀ id r, ix.get? id = some r ↔ r ∈ records ∧ r.id = id
  /-- A posting of a term says how often an attribute of a record has it. -/
  counted : ∀ term p, (∃ list, ix.text.postings.get? term = some list ∧ p ∈ list) ↔
    ∃ r ∈ records, p.id = r.id ∧ 0 < p.count ∧
      ∃ s, p.field.text? r.toEntry = some s ∧ p.count = (termsOf s).count term
  once : ∀ term list, ix.text.postings.get? term = some list →
    (list.map fun p => (p.id, p.field)).Nodup
  nonempty : ∀ term list, ix.text.postings.get? term = some list → list ≠ []
  ordered : ∀ term list, ix.text.postings.get? term = some list →
    list.Pairwise (Posting.Before records)
  writtenFor : ∀ id, id ∈ ix.text.termsByRecord.keys ↔ ∃ r ∈ records, r.id = id
  /-- The terms written down for a record, in ascending order and without repetitions. -/
  written : ∀ r ∈ records, ∃ terms, ix.text.termsByRecord.get? r.id = some terms ∧
    terms.Pairwise (· < ·) ∧ ∀ term, term ∈ terms ↔ term ∈ termsOfEntry r.toEntry
  distinct : (ix.slots.values.map (·.seq)).Nodup
  below : ∀ slot ∈ ix.slots.values, slot.seq < ix.nextSeq
  /-- What was added later has a greater number. -/
  numbered : ∀ a ∈ ix.slots.values, ∀ b ∈ ix.slots.values, a.seq < b.seq →
    [a.record, b.record].Sublist records

theorem Holds.represents {rules : IndexRules} {ix : LogIndex} {slots : List Slot}
    (h : Holds rules ix slots) : Represents ix (slots.map (·.record)) := by
  have hpostings : ∀ {term list}, ix.text.postings.get? term = some list →
      (slots.map (·.record)).flatMap (TextIndex.occurrencesOf term) = list ∧ list ≠ [] := by
    intro term list hget
    rw [h.text, TextIndex.get?_postings, TextIndex.nonempty?_eq_some_iff] at hget
    exact ⟨hget.1, hget.1 ▸ hget.2⟩
  have hordered : ∀ {term list}, ix.text.postings.get? term = some list →
      list.Pairwise (Posting.Before (slots.map (·.record))) := by
    intro term list hget
    rw [← (hpostings hget).1]
    exact TextIndex.pairwise_postings _ term
  refine {
    held := fun id r => h.get?_eq_some_iff
    counted := fun term p => ?_
    once := fun term list hget => ?_
    nonempty := fun term list hget => (hpostings hget).2
    ordered := fun term list hget => hordered hget
    writtenFor := fun id => by rw [h.text, TextIndex.mem_keys_termsByRecord]
    written := fun r hr => ⟨TextIndex.recordTerms r, ?_, TextIndex.recordTerms_ascending r,
      fun term => TextIndex.mem_recordTerms⟩
    distinct := h.nodup_seq_values
    below := fun slot hslot => h.below slot (h.values_perm.mem_iff.mp hslot)
    numbered := fun a ha b hb hlt => h.sublist_of_seq_lt (h.values_perm.mem_iff.mp ha)
      (h.values_perm.mem_iff.mp hb) hlt }
  · simp only [← TextIndex.mem_occurrencesOf_iff, ← List.mem_flatMap]
    rw [h.text, TextIndex.get?_postings]
    simp only [TextIndex.nonempty?_eq_some_iff]
    constructor
    · rintro ⟨list, ⟨rfl, -⟩, hp⟩
      exact hp
    · intro hp
      exact ⟨_, ⟨rfl, List.ne_nil_of_mem hp⟩, hp⟩
  · rw [List.Nodup, List.pairwise_map]
    exact (hordered hget).imp fun hbefore => TextIndex.ne_of_before h.distinct_ids hbefore
  · rw [h.text, TextIndex.get?_termsByRecord, TextIndex.find?_of_mem h.distinct_ids hr]
    rfl

/-- After any history the tables are those of the live records. -/
theorem represents_live (rules : IndexRules) (history : List Change) :
    Represents (after rules history) (live history) := by
  obtain ⟨slots, h, hlive⟩ := exists_holds rules history
  rw [← hlive]
  exact h.represents

end LogIndex
end LogLens
