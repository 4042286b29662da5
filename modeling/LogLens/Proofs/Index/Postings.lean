/-
The text index as a function of the records it holds.

`ofRecords` adds records to an empty index.  A lookup of a term in it gives the occurrences of the
term in the records, in the order of the records and, within one, of the attributes.  Taking a
record out leaves the index that the other records alone would have made (`remove_ofRecords`): no
trace stays behind, and the order of what stays does not change.
-/
import LogLens.Proofs.Dict.Count
import LogLens.Index.TextIndex

namespace LogLens
namespace Index

/-- All terms of the indexed texts of an entry, with repetitions. -/
def termsOfEntry (e : Entry) : List String :=
  TextField.all.flatMap fun field => ((field.text? e).map termsOf).getD []

theorem TextField.mem_all (field : TextField) : field ∈ TextField.all := by
  cases field <;> decide

theorem mem_termsOfEntry {e : Entry} {term : String} :
    term ∈ termsOfEntry e ↔ ∃ field s, TextField.text? field e = some s ∧ term ∈ termsOf s := by
  simp only [termsOfEntry, List.mem_flatMap]
  constructor
  · intro h
    obtain ⟨field, -, h⟩ := h
    cases hs : field.text? e with
    | none => simp [hs] at h
    | some s => exact ⟨field, s, hs, by simpa [hs] using h⟩
  · intro h
    obtain ⟨field, s, hs, h⟩ := h
    exact ⟨field, field.mem_all, by simpa [hs] using h⟩

namespace TextIndex

/-! ## Occurrences in one record -/

/-- The occurrences of a term in a record, by attribute. -/
def occurrencesOf (term : String) (r : Record) : List Posting :=
  ((occurrences r).filter (·.1 = term)).map (·.2)

theorem get?_fieldCounts {e : Entry} {field : TextField} {s : String}
    (h : field.text? e = some s) (term : String) :
    (fieldCounts e field).get? term =
      if term ∈ termsOf s then some ((termsOf s).count term) else none := by
  rw [fieldCounts, h, Dict.get?_countAll]

theorem mem_occurrences {r : Record} {term : String} {p : Posting} :
    (term, p) ∈ occurrences r ↔
      p.id = r.id ∧ ∃ s, p.field.text? r.toEntry = some s ∧ term ∈ termsOf s ∧
        p.count = (termsOf s).count term := by
  simp only [occurrences, List.mem_flatMap, List.mem_map, Prod.mk.injEq]
  constructor
  · intro h
    obtain ⟨field, -, ⟨term', n⟩, he, rfl, rfl⟩ := h
    have hget := Dict.get?_eq_some_iff.mpr he
    cases hs : field.text? r.toEntry with
    | none =>
      rw [fieldCounts, hs] at hget
      exact absurd hget (by simp)
    | some s =>
      rw [get?_fieldCounts hs] at hget
      by_cases hmem : term' ∈ termsOf s
      · rw [if_pos hmem, Option.some.injEq] at hget
        exact ⟨rfl, s, rfl, hmem, hget.symm⟩
      · rw [if_neg hmem] at hget
        exact absurd hget (by simp)
  · intro h
    obtain ⟨hid, s, hs, hmem, hcount⟩ := h
    refine ⟨p.field, p.field.mem_all, (term, p.count), ?_, rfl, ?_⟩
    · rw [← Dict.get?_eq_some_iff, get?_fieldCounts hs, if_pos hmem, hcount]
    · rw [← hid]

theorem mem_occurrencesOf {r : Record} {term : String} {p : Posting} :
    p ∈ occurrencesOf term r ↔ (term, p) ∈ occurrences r := by
  simp only [occurrencesOf, List.mem_map, List.mem_filter, decide_eq_true_eq]
  constructor
  · intro h
    obtain ⟨q, ⟨hq, rfl⟩, rfl⟩ := h
    exact hq
  · intro h
    exact ⟨(term, p), ⟨h, by simp⟩, rfl⟩

theorem id_of_mem_occurrencesOf {r : Record} {term : String} {p : Posting}
    (h : p ∈ occurrencesOf term r) : p.id = r.id :=
  (mem_occurrences.mp (mem_occurrencesOf.mp h)).1

theorem exists_mem_occurrences_iff {r : Record} {term : String} :
    (∃ p, (term, p) ∈ occurrences r) ↔ term ∈ termsOfEntry r.toEntry := by
  simp only [mem_occurrences, mem_termsOfEntry]
  constructor
  · intro h
    obtain ⟨p, -, s, hs, hmem, -⟩ := h
    exact ⟨p.field, s, hs, hmem⟩
  · intro h
    obtain ⟨field, s, hs, hmem⟩ := h
    exact ⟨⟨r.id, field, (termsOf s).count term⟩, rfl, s, hs, hmem, rfl⟩

theorem occurrencesOf_ne_nil_iff {r : Record} {term : String} :
    occurrencesOf term r ≠ [] ↔ term ∈ termsOfEntry r.toEntry := by
  rw [← exists_mem_occurrences_iff]
  constructor
  · intro h
    obtain ⟨p, hp⟩ := List.exists_mem_of_ne_nil _ h
    exact ⟨p, mem_occurrencesOf.mp hp⟩
  · intro h
    obtain ⟨p, hp⟩ := h
    exact List.ne_nil_of_mem (mem_occurrencesOf.mpr hp)

theorem mem_recordTerms {r : Record} {term : String} :
    term ∈ recordTerms r ↔ term ∈ termsOfEntry r.toEntry := by
  rw [recordTerms, Dict.mem_keys_ofList, ← exists_mem_occurrences_iff]
  constructor
  · intro h
    obtain ⟨v, h⟩ := h
    obtain ⟨p, hp, hterm⟩ := List.mem_map.mp h
    obtain rfl : p.1 = term := (Prod.mk.inj hterm).1
    exact ⟨p.2, hp⟩
  · intro h
    obtain ⟨p, hp⟩ := h
    exact ⟨(), List.mem_map.mpr ⟨(term, p), hp, rfl⟩⟩

/-! ## Records one after the other -/

theorem rules_insert (ix : TextIndex) (r : Record) : (ix.insert r).rules = ix.rules := by
  unfold insert
  rfl

theorem postings_insert (ix : TextIndex) (r : Record) :
    (ix.insert r).postings = (occurrences r).foldl addPosting ix.postings := by
  unfold insert
  rfl

theorem termsByRecord_insert (ix : TextIndex) (r : Record) :
    (ix.insert r).termsByRecord = ix.termsByRecord.insert r.id (recordTerms r) := by
  unfold insert
  rfl

/-- The index of records that are added one after the other. -/
def ofRecords (rules : IndexRules) (records : List Record) : TextIndex :=
  records.foldl insert { rules }

/-- No term is kept without an occurrence. -/
def nonempty? (list : List Posting) : Option (List Posting) :=
  if list = [] then none else some list

theorem nonempty?_eq_some_iff {list list' : List Posting} :
    nonempty? list = some list' ↔ list = list' ∧ list ≠ [] := by
  by_cases h : list = [] <;> simp [nonempty?, h]

theorem getD_nonempty? (list : List Posting) : (nonempty? list).getD [] = list := by
  by_cases h : list = [] <;> simp [nonempty?, h]

theorem ofRecords_concat (rules : IndexRules) (records : List Record) (r : Record) :
    ofRecords rules (records ++ [r]) = (ofRecords rules records).insert r := by
  rw [ofRecords, List.foldl_append]
  rfl

theorem rules_ofRecords (rules : IndexRules) (records : List Record) :
    (ofRecords rules records).rules = rules := by
  induction records using List.reverseRecOn with
  | nil => rfl
  | append_singleton records r ih =>
    rw [ofRecords_concat, rules_insert, ih]

theorem get?_foldl_addPosting (list : List (String × Posting)) (term : String)
    {d : Dict String (List Posting)} {held : List Posting} (h : d.get? term = nonempty? held) :
    (list.foldl addPosting d).get? term =
      nonempty? (held ++ (list.filter (·.1 = term)).map (·.2)) := by
  induction list generalizing d held with
  | nil => simpa using h
  | cons p list ih =>
    rw [List.foldl_cons]
    by_cases hp : p.1 = term
    · have hstep : (addPosting d p).get? term = nonempty? (held ++ [p.2]) := by
        rw [addPosting, Dict.get?_alter, if_pos hp.symm, hp, h, getD_nonempty?]
        simp [nonempty?]
      rw [ih hstep, List.filter_cons_of_pos (by simpa using hp)]
      simp
    · have hstep : (addPosting d p).get? term = nonempty? held := by
        rw [addPosting, Dict.get?_alter, if_neg (Ne.symm hp), h]
      rw [ih hstep, List.filter_cons_of_neg (by simpa using hp)]

/-- The index lists the occurrences of a term record by record. -/
theorem get?_postings (rules : IndexRules) (records : List Record) (term : String) :
    (ofRecords rules records).postings.get? term =
      nonempty? (records.flatMap (occurrencesOf term)) := by
  induction records using List.reverseRecOn with
  | nil => rfl
  | append_singleton records r ih =>
    rw [ofRecords_concat, postings_insert, List.flatMap_append, List.flatMap_singleton]
    exact get?_foldl_addPosting (occurrences r) term ih

theorem get?_termsByRecord (rules : IndexRules) (records : List Record) (id : RecordId) :
    (ofRecords rules records).termsByRecord.get? id =
      (records.reverse.find? fun r => r.id = id).map recordTerms := by
  induction records using List.reverseRecOn with
  | nil => rfl
  | append_singleton records r ih =>
    rw [ofRecords_concat, termsByRecord_insert, Dict.get?_insert, List.reverse_append,
      List.reverse_singleton, List.singleton_append]
    by_cases hid : id = r.id
    · rw [if_pos hid, List.find?_cons_of_pos (by simpa using hid.symm)]
      rfl
    · rw [if_neg hid, List.find?_cons_of_neg (by simpa using Ne.symm hid), ih]

/-! ## Taking a record out -/

theorem ext_lookups {ix ix' : TextIndex} (hrules : ix.rules = ix'.rules)
    (hpostings : ∀ term, ix.postings.get? term = ix'.postings.get? term)
    (hterms : ∀ id, ix.termsByRecord.get? id = ix'.termsByRecord.get? id) : ix = ix' := by
  have hp : ix.postings = ix'.postings := Dict.ext_get? hpostings
  have ht : ix.termsByRecord = ix'.termsByRecord := Dict.ext_get? hterms
  cases ix
  cases ix'
  cases hrules
  cases hp
  cases ht
  rfl

theorem get?_dropPostings {id : RecordId} {d : Dict String (List Posting)} {term : String}
    {held : List Posting} (h : d.get? term = nonempty? held) (term' : String) :
    (dropPostings id d term').get? term =
      nonempty? (if term = term' then held.filter (·.id ≠ id) else held) := by
  rw [dropPostings, Dict.get?_alter]
  by_cases ht : term = term'
  · subst ht
    rw [if_pos rfl, if_pos rfl, h, getD_nonempty?]
    cases held.filter (·.id ≠ id) with
    | nil => rfl
    | cons p rest => rfl
  · rw [if_neg ht, if_neg ht, h]

theorem get?_foldl_dropPostings (id : RecordId) (terms : List String) (term : String)
    {d : Dict String (List Posting)} {held : List Posting} (h : d.get? term = nonempty? held) :
    (terms.foldl (dropPostings id) d).get? term =
      nonempty? (if term ∈ terms then held.filter (·.id ≠ id) else held) := by
  induction terms generalizing d held with
  | nil => simpa using h
  | cons term' terms ih =>
    rw [List.foldl_cons, ih (get?_dropPostings h term')]
    by_cases ht : term = term'
    · subst ht
      rw [if_pos rfl, if_pos List.mem_cons_self, List.filter_filter]
      simp
    · rw [if_neg ht]
      simp only [List.mem_cons, ht, false_or]

theorem eq_of_id_eq {records : List Record} (h : (records.map (·.id)).Nodup) {r r' : Record}
    (hr : r ∈ records) (hr' : r' ∈ records) (hid : r.id = r'.id) : r = r' :=
  List.inj_on_of_nodup_map h hr hr' hid

/-- The occurrences that do not belong to a record are those in the other records. -/
theorem filter_flatMap_occurrencesOf (records : List Record) (term : String) (id : RecordId) :
    (records.flatMap (occurrencesOf term)).filter (·.id ≠ id) =
      (records.filter (·.id ≠ id)).flatMap (occurrencesOf term) := by
  induction records with
  | nil => rfl
  | cons r records ih =>
    rw [List.flatMap_cons, List.filter_append, ih]
    by_cases hid : r.id = id
    · have hnone : (occurrencesOf term r).filter (·.id ≠ id) = [] := by
        refine List.filter_eq_nil_iff.mpr fun p hp => ?_
        simp [id_of_mem_occurrencesOf hp, hid]
      rw [hnone, List.nil_append, List.filter_cons_of_neg (by simp [hid])]
    · have hall : (occurrencesOf term r).filter (·.id ≠ id) = occurrencesOf term r := by
        refine List.filter_eq_self.mpr fun p hp => ?_
        simp [id_of_mem_occurrencesOf hp, hid]
      rw [hall, List.filter_cons_of_pos (by simp [hid]), List.flatMap_cons]

/-- Taking a record out leaves the index of the other records. -/
theorem remove_ofRecords (rules : IndexRules) {records : List Record}
    (h : (records.map (·.id)).Nodup) (id : RecordId) :
    (ofRecords rules records).remove id = ofRecords rules (records.filter (·.id ≠ id)) := by
  cases hterms : (ofRecords rules records).termsByRecord.get? id with
  | none =>
    have hnone : ∀ r ∈ records, r.id ≠ id := by
      rw [get?_termsByRecord, Option.map_eq_none_iff, List.find?_eq_none] at hterms
      intro r hr
      simpa using hterms r (List.mem_reverse.mpr hr)
    have hself : records.filter (·.id ≠ id) = records :=
      List.filter_eq_self.mpr fun r hr => by simpa using hnone r hr
    rw [hself]
    simp only [remove, hterms]
  | some terms =>
    obtain ⟨r, hr, rfl, rfl⟩ : ∃ r ∈ records, r.id = id ∧ recordTerms r = terms := by
      rw [get?_termsByRecord, Option.map_eq_some_iff] at hterms
      obtain ⟨r, hr, hrt⟩ := hterms
      exact ⟨r, List.mem_reverse.mp (List.mem_of_find?_eq_some hr),
        by simpa using List.find?_some hr, hrt⟩
    have hremove : (ofRecords rules records).remove r.id =
        { ofRecords rules records with
          postings := (recordTerms r).foldl (dropPostings r.id) (ofRecords rules records).postings
          termsByRecord := (ofRecords rules records).termsByRecord.erase r.id } := by
      simp only [remove, hterms]
    rw [hremove]
    refine ext_lookups ?_ (fun term => ?_) fun id => ?_
    · show (ofRecords rules records).rules = _
      rw [rules_ofRecords, rules_ofRecords]
    · have hdropped := get?_foldl_dropPostings r.id (recordTerms r) term
        (get?_postings rules records term)
      rw [get?_postings, ← filter_flatMap_occurrencesOf]
      dsimp only
      rw [hdropped]
      by_cases ht : term ∈ recordTerms r
      · rw [if_pos ht]
      · -- the record has no occurrence of the term that could be in the way
        rw [if_neg ht]
        refine congrArg nonempty? (List.filter_eq_self.mpr fun p hp => ?_).symm
        obtain ⟨r', hr', hp⟩ := List.mem_flatMap.mp hp
        rw [decide_eq_true_eq, id_of_mem_occurrencesOf hp]
        intro hid
        obtain rfl := eq_of_id_eq h hr' hr hid
        exact ht (mem_recordTerms.mpr (occurrencesOf_ne_nil_iff.mp (List.ne_nil_of_mem hp)))
    · rw [get?_termsByRecord]
      refine (Dict.get?_erase _ _ _).trans ?_
      rw [get?_termsByRecord, ← List.filter_reverse, List.find?_filter]
      by_cases hid : id = r.id
      · rw [if_pos hid, List.find?_eq_none.mpr (by simp [hid]), Option.map_none]
      · rw [if_neg hid]
        refine congrArg (Option.map recordTerms) ?_
        refine congrArg (records.reverse.find? ·) (funext fun a => ?_)
        by_cases ha : a.id = id
        · simp [ha, hid]
        · simp [ha]

end TextIndex
end Index
end LogLens
