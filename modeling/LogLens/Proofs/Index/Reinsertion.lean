/-
The text index on its own, under any sequence of changes.

An insertion lists the record under its terms and writes down these terms; a removal strikes the
record from the terms written down last.  So a record that is inserted again with other terms stays
listed under the old ones, and its removal does not reach them.  `Listed` says for every sequence of
changes what the index lists (`lists_after`), and searches and the count of terms follow from
that.  The index lists the terms of the records held, and no others, as long as no record takes the
place of one that has a term it lacks, and no longer (`inStep_concat_iff`).
-/
import LogLens.Proofs.Index.Search

namespace LogLens
namespace Index
namespace TextIndex

open LogIndex (Event lasting lasting_concat)

/-! ## Changes -/

def step (ix : TextIndex) : Event → TextIndex
  | .put r => ix.insert r
  | .drop id => ix.remove id
  | .wipe => ix.clear

/-- The index that a sequence of changes leads to. -/
def after (rules : IndexRules) (events : List Event) : TextIndex :=
  events.foldl step { rules }

theorem after_concat (rules : IndexRules) (events : List Event) (e : Event) :
    after rules (events ++ [e]) = (after rules events).step e := by
  rw [after, List.foldl_append]
  rfl

/-! ## What the index lists -/

/-- The record that the changes leave under the identifier has the term. -/
def Held (events : List Event) (id : RecordId) (term : String) : Prop :=
  ∃ r ∈ lasting events, r.id = id ∧ term ∈ termsOfEntry r.toEntry

/-- The change after the others strikes the identifier from the term. -/
def Strikes (events : List Event) (id : RecordId) (term : String) : Event → Prop
  | .put _ => False
  | .drop id' => id' = id ∧ Held events id term
  | .wipe => True

/-- The changes leave the identifier listed under the term. -/
inductive Listed (id : RecordId) (term : String) : List Event → Prop
  | put {events : List Event} {r : Record} (hid : r.id = id)
      (hterm : term ∈ termsOfEntry r.toEntry) : Listed id term (events ++ [.put r])
  | stay {events : List Event} {e : Event} (h : Listed id term events)
      (he : ¬Strikes events id term e) : Listed id term (events ++ [e])

theorem not_listed_nil {id : RecordId} {term : String} : ¬Listed id term [] := by
  intro h
  generalize hnil : ([] : List Event) = events at h
  cases h <;> exact absurd hnil (by simp)

theorem listed_concat_iff {id : RecordId} {term : String} {events : List Event} {e : Event} :
    Listed id term (events ++ [e]) ↔
      (∃ r ∈ e.added, r.id = id ∧ term ∈ termsOfEntry r.toEntry) ∨
        Listed id term events ∧ ¬Strikes events id term e := by
  constructor
  · intro h
    generalize hall : events ++ [e] = all at h
    cases h with
    | put hid hterm =>
      obtain ⟨rfl, rfl⟩ := List.concat_inj.mp (by simpa using hall)
      exact Or.inl ⟨_, List.mem_singleton_self _, hid, hterm⟩
    | stay h he =>
      obtain ⟨rfl, rfl⟩ := List.concat_inj.mp (by simpa using hall)
      exact Or.inr ⟨h, he⟩
  · rintro (⟨r, hr, hid, hterm⟩ | ⟨h, he⟩)
    · cases e with
      | put r' =>
        obtain rfl := List.mem_singleton.mp hr
        exact .put hid hterm
      | drop id' => exact absurd hr List.not_mem_nil
      | wipe => exact absurd hr List.not_mem_nil
    · exact .stay h he

/-- What one change does to the record held under an identifier. -/
theorem exists_lasting_concat_iff {events : List Event} {e : Event} {id : RecordId}
    {P : Record → Prop} : (∃ r ∈ lasting (events ++ [e]), r.id = id ∧ P r) ↔
      (∃ r ∈ e.added, r.id = id ∧ P r) ∨
        (∃ r ∈ lasting events, r.id = id ∧ P r) ∧ e.ends id = false := by
  simp only [lasting_concat, List.mem_append, List.mem_filter, Bool.not_eq_true']
  constructor
  · rintro ⟨r, ⟨hr, hends⟩ | hr, rfl, h⟩
    · exact Or.inr ⟨⟨r, hr, rfl, h⟩, hends⟩
    · exact Or.inl ⟨r, hr, rfl, h⟩
  · rintro (⟨r, hr, rfl, h⟩ | ⟨⟨r, hr, rfl, h⟩, hends⟩)
    · exact ⟨r, Or.inr hr, rfl, h⟩
    · exact ⟨r, Or.inl ⟨hr, hends⟩, rfl, h⟩

/-- The postings list what `Listed` says, and the terms written down are those of the records
held. -/
structure Lists (rules : IndexRules) (events : List Event) (ix : TextIndex) : Prop where
  sameRules : ix.rules = rules
  postings : ∀ term, ∃ list, ix.postings.get? term = nonempty? list ∧
    ∀ id, (∃ p ∈ list, p.id = id) ↔ Listed id term events
  terms : ∀ id terms, ix.termsByRecord.get? id = some terms ↔
    ∃ r ∈ lasting events, r.id = id ∧ recordTerms r = terms

theorem exists_mem_occurrencesOf_iff {r : Record} {term : String} {id : RecordId} :
    (∃ p ∈ occurrencesOf term r, p.id = id) ↔ r.id = id ∧ term ∈ termsOfEntry r.toEntry := by
  rw [← occurrencesOf_ne_nil_iff]
  constructor
  · rintro ⟨p, hp, rfl⟩
    exact ⟨(id_of_mem_occurrencesOf hp).symm, List.ne_nil_of_mem hp⟩
  · rintro ⟨rfl, hne⟩
    obtain ⟨p, hp⟩ := List.exists_mem_of_ne_nil _ hne
    exact ⟨p, hp, id_of_mem_occurrencesOf hp⟩

theorem exists_mem_filter_iff {list : List Posting} {id id' : RecordId} :
    (∃ p ∈ list.filter (·.id ≠ id), p.id = id') ↔ (∃ p ∈ list, p.id = id') ∧ ¬id = id' := by
  simp only [List.mem_filter, decide_eq_true_eq]
  constructor
  · rintro ⟨p, ⟨hp, hne⟩, rfl⟩
    exact ⟨⟨p, hp, rfl⟩, Ne.symm hne⟩
  · rintro ⟨⟨p, hp, rfl⟩, hne⟩
    exact ⟨p, ⟨hp, Ne.symm hne⟩, rfl⟩

namespace Lists

variable {rules : IndexRules} {events : List Event} {ix : TextIndex}

theorem nil (rules : IndexRules) : Lists rules [] { rules } where
  sameRules := rfl
  postings _ := ⟨[], rfl, fun _ => by simp [not_listed_nil]⟩
  terms _ _ := by simp [lasting]

theorem held_iff (h : Lists rules events ix) {id : RecordId} {terms : List String}
    (hterms : ix.termsByRecord.get? id = some terms) {term : String} :
    Held events id term ↔ term ∈ terms := by
  constructor
  · rintro ⟨r, hr, hid, hterm⟩
    have hget := (h.terms id (recordTerms r)).mpr ⟨r, hr, hid, rfl⟩
    obtain rfl : recordTerms r = terms := Option.some.inj (hget.symm.trans hterms)
    exact mem_recordTerms.mpr hterm
  · intro hterm
    obtain ⟨r, hr, hid, rfl⟩ := (h.terms id terms).mp hterms
    exact ⟨r, hr, hid, mem_recordTerms.mp hterm⟩

theorem put (h : Lists rules events ix) (r : Record) :
    Lists rules (events ++ [.put r]) (ix.insert r) where
  sameRules := (rules_insert ix r).trans h.sameRules
  postings term := by
    obtain ⟨list, hget, hlist⟩ := h.postings term
    refine ⟨list ++ occurrencesOf term r, ?_, fun id => ?_⟩
    · rw [postings_insert]
      exact get?_foldl_addPosting (occurrences r) term hget
    · simp only [List.mem_append, or_and_right, exists_or, hlist, exists_mem_occurrencesOf_iff,
        listed_concat_iff, Event.added, List.mem_singleton, exists_eq_left, Strikes,
        not_false_eq_true, and_true]
      exact or_comm
  terms id terms := by
    rw [termsByRecord_insert, Dict.get?_insert, exists_lasting_concat_iff, ← h.terms]
    by_cases hid : id = r.id
    · simp [hid, Event.added, Event.ends]
    · simp [hid, Ne.symm hid, Event.added, Event.ends]

theorem drop (h : Lists rules events ix) (id : RecordId) :
    Lists rules (events ++ [.drop id]) (ix.remove id) := by
  cases hterms : ix.termsByRecord.get? id with
  | none =>
    have hremove : ix.remove id = ix := by simp only [remove, hterms]
    have hnone : ∀ id' terms, ix.termsByRecord.get? id' = some terms → (id == id') = false := by
      rintro id' terms hget
      rw [beq_eq_false_iff_ne]
      rintro rfl
      rw [hterms] at hget
      cases hget
    rw [hremove]
    refine ⟨h.sameRules, fun term => ?_, fun id' terms => ?_⟩
    · obtain ⟨list, hget, hlist⟩ := h.postings term
      refine ⟨list, hget, fun id' => ?_⟩
      have hstrikes : ¬Strikes events id' term (.drop id) := by
        rintro ⟨rfl, r, hr, hid, -⟩
        rw [(h.terms id (recordTerms r)).mpr ⟨r, hr, hid, rfl⟩] at hterms
        cases hterms
      rw [hlist, listed_concat_iff]
      simp [Event.added, hstrikes]
    · rw [exists_lasting_concat_iff, ← h.terms]
      simp only [Event.added, List.not_mem_nil, false_and, exists_false, false_or, Event.ends]
      exact ⟨fun hget => ⟨hget, hnone id' terms hget⟩, And.left⟩
  | some terms =>
    have hremove : ix.remove id =
        { ix with
          postings := terms.foldl (dropPostings id) ix.postings
          termsByRecord := ix.termsByRecord.erase id } := by
      simp only [remove, hterms]
    rw [hremove]
    refine ⟨h.sameRules, fun term => ?_, fun id' terms' => ?_⟩
    · obtain ⟨list, hget, hlist⟩ := h.postings term
      refine ⟨_, get?_foldl_dropPostings id terms term hget, fun id' => ?_⟩
      rw [listed_concat_iff, ← hlist]
      simp only [Event.added, List.not_mem_nil, false_and, exists_false, false_or, Strikes]
      have hheld : id = id' ∧ Held events id' term ↔ id = id' ∧ term ∈ terms :=
        and_congr_right fun hid => hid ▸ h.held_iff hterms
      rw [hheld]
      by_cases hterm : term ∈ terms
      · simp only [hterm, if_true, and_true]
        exact exists_mem_filter_iff
      · simp [hterm]
    · show (ix.termsByRecord.erase id).get? id' = _ ↔ _
      rw [exists_lasting_concat_iff, ← h.terms, Dict.get?_erase]
      by_cases hid : id' = id
      · simp [hid, Event.added, Event.ends]
      · simp [hid, Ne.symm hid, Event.added, Event.ends]

theorem wipe (h : Lists rules events ix) : Lists rules (events ++ [.wipe]) ix.clear where
  sameRules := h.sameRules
  postings term := ⟨[], rfl, fun id => by simp [listed_concat_iff, Event.added, Strikes]⟩
  terms id terms := by
    rw [exists_lasting_concat_iff]
    simp [clear, Event.added, Event.ends]

/-- A search finds an identifier when every word of the text finds a term under which the identifier
is listed. -/
theorem isSome_search? (h : Lists rules events ix) {text : String} {fuzzy : Bool} {scores : Scores}
    (hs : ix.search? text fuzzy = some scores) {id : RecordId} :
    (scores.get? id).isSome = true ↔
      ∀ word ∈ termsOf text, ∃ term, Listed id term events ∧ Finds rules fuzzy word term := by
  rw [get?_search? hs, isSome_combined (by simpa using termsOf_ne_nil hs), List.forall_mem_map]
  refine forall₂_congr fun word _ => ?_
  rw [isSome_wordScores, h.sameRules]
  constructor
  · rintro ⟨e, he, hfinds, hp⟩
    obtain ⟨list, hget, hlist⟩ := h.postings e.1
    rw [Dict.get?_eq_some_iff.mpr he] at hget
    obtain ⟨rfl, -⟩ := nonempty?_eq_some_iff.mp hget.symm
    exact ⟨e.1, (hlist id).mp hp, hfinds⟩
  · rintro ⟨term, hlisted, hfinds⟩
    obtain ⟨list, hget, hlist⟩ := h.postings term
    obtain ⟨p, hp, hid⟩ := (hlist id).mpr hlisted
    have hentry := hget.trans (nonempty?_eq_some_iff.mpr ⟨rfl, List.ne_nil_of_mem hp⟩)
    exact ⟨(term, list), Dict.get?_eq_some_iff.mp hentry, hfinds, p, hp, hid⟩

theorem mem_keys (h : Lists rules events ix) {term : String} :
    term ∈ ix.postings.keys ↔ ∃ id, Listed id term events := by
  obtain ⟨list, hget, hlist⟩ := h.postings term
  rw [Dict.mem_keys_iff, hget]
  simp only [nonempty?_eq_some_iff, exists_eq_left', ← hlist]
  constructor
  · intro hne
    obtain ⟨p, hp⟩ := List.exists_mem_of_ne_nil _ hne
    exact ⟨p.id, p, hp, rfl⟩
  · rintro ⟨id, p, hp, -⟩
    exact List.ne_nil_of_mem hp

end Lists

/-- After any sequence of changes the index lists what `Listed` says. -/
theorem lists_after (rules : IndexRules) (events : List Event) :
    Lists rules events (after rules events) := by
  induction events using List.reverseRecOn with
  | nil => exact Lists.nil rules
  | append_singleton events e ih =>
    rw [after_concat]
    cases e with
    | put r => exact ih.put r
    | drop id => exact ih.drop id
    | wipe => exact ih.wipe

/-! ## What the records held say -/

/-- The index lists the terms of the records held, and no others. -/
def InStep (events : List Event) : Prop :=
  ∀ id term, Listed id term events ↔ Held events id term

/-- A record that the change puts in the place of another one has all of its terms. -/
def KeepsTerms (events : List Event) (e : Event) : Prop :=
  ∀ r ∈ e.added, ∀ old ∈ lasting events, old.id = r.id →
    termsOfEntry old.toEntry ⊆ termsOfEntry r.toEntry

instance (events : List Event) (e : Event) : Decidable (KeepsTerms events e) :=
  inferInstanceAs (Decidable (∀ r ∈ e.added, ∀ old ∈ lasting events, old.id = r.id →
    termsOfEntry old.toEntry ⊆ termsOfEntry r.toEntry))

theorem inStep_nil : InStep [] := fun _ _ => by simp [not_listed_nil, Held, lasting]

theorem inStep_wipe (events : List Event) : InStep (events ++ [.wipe]) := by
  intro id term
  rw [listed_concat_iff, Held, exists_lasting_concat_iff]
  simp [Event.added, Strikes, Event.ends]

/-- After a record is put in, its identifier is listed as it should be exactly when the record has
what the one before it had. -/
theorem listed_iff_held_put {events : List Event} (h : InStep events) {r : Record} {id : RecordId}
    {term : String} :
    (Listed id term (events ++ [.put r]) ↔ Held (events ++ [.put r]) id term) ↔
      (Held events id term → r.id = id → term ∈ termsOfEntry r.toEntry) := by
  rw [listed_concat_iff, h id term]
  unfold Held
  rw [exists_lasting_concat_iff]
  simp only [Event.added, List.mem_singleton, exists_eq_left, Strikes, not_false_eq_true,
    and_true, Event.ends, beq_eq_false_iff_ne]
  constructor
  · intro hiff hheld hr
    rcases hiff.mp (Or.inr hheld) with ⟨-, hterm⟩ | ⟨-, hne⟩
    · exact hterm
    · exact absurd hr hne
  · intro hnew
    refine ⟨fun hlisted => ?_, Or.imp_right And.left⟩
    rcases hlisted with hput | hheld
    · exact Or.inl hput
    · by_cases hr : r.id = id
      · exact Or.inl ⟨hr, hnew hheld hr⟩
      · exact Or.inr ⟨hheld, hr⟩

/-- A change leaves the index in step exactly when no term of a replaced record is lost. -/
theorem inStep_concat_iff {events : List Event} (h : InStep events) {e : Event} :
    InStep (events ++ [e]) ↔ KeepsTerms events e := by
  cases e with
  | put r =>
    simp only [InStep, listed_iff_held_put h, KeepsTerms, Event.added, List.mem_singleton,
      forall_eq]
    constructor
    · intro hterms old hold hid term hterm
      exact hterms r.id term ⟨old, hold, hid, hterm⟩ rfl
    · rintro hterms id term ⟨old, hold, hid, hterm⟩ hr
      exact hterms old hold (hid.trans hr.symm) hterm
  | drop id' =>
    refine iff_of_true (fun id term => ?_) (fun r hr => absurd hr List.not_mem_nil)
    rw [listed_concat_iff, Held, exists_lasting_concat_iff, h id term]
    simp only [Strikes, Event.ends, beq_eq_false_iff_ne]
    exact or_congr_right (and_congr_right fun hheld => not_congr (and_iff_left hheld))
  | wipe => exact iff_of_true (inStep_wipe events) (fun r hr => absurd hr List.not_mem_nil)

/-- Since the index was empty last, no term of a replaced record was lost. -/
inductive Renews : List Event → Prop
  | nil : Renews []
  | wipe {events : List Event} : Renews (events ++ [.wipe])
  | concat {events : List Event} {e : Event} (h : Renews events) (he : KeepsTerms events e) :
      Renews (events ++ [e])

theorem Renews.inStep {events : List Event} (h : Renews events) : InStep events := by
  induction h with
  | nil => exact inStep_nil
  | wipe => exact inStep_wipe _
  | concat _ he ih => exact (inStep_concat_iff ih).mpr he

theorem lasting_ids_nodup (events : List Event) : ((lasting events).map (·.id)).Nodup := by
  obtain ⟨slots, h, hlasting⟩ := LogIndex.exists_holds_events {} events
  rw [← hlasting]
  exact h.distinct_ids

/-- As long as no record takes the place of one with terms that it lacks, a search finds the records
held in which every word finds a term, under their identifiers and under no other, and the terms
counted are those of the records held. -/
theorem search?_finds_held (rules : IndexRules) {events : List Event} (h : Renews events) :
    (∀ text fuzzy, termsOf text ≠ [] → ∃ scores,
      (after rules events).search? text fuzzy = some scores ∧
      ∀ id, (scores.get? id).isSome = true ↔ ∃ r ∈ lasting events, r.id = id ∧
        ∀ word ∈ termsOf text, ∃ term ∈ termsOfEntry r.toEntry, Finds rules fuzzy word term) ∧
    (after rules events).termCount =
      ((lasting events).flatMap fun r => termsOfEntry r.toEntry).dedup.length := by
  have hlists := lists_after rules events
  constructor
  · intro text fuzzy hwords
    obtain ⟨scores, hs⟩ := Option.ne_none_iff_exists'.mp (mt search?_eq_none_iff.mp hwords)
    refine ⟨scores, hs, fun id => ?_⟩
    rw [hlists.isSome_search? hs]
    simp only [h.inStep _ _]
    constructor
    · intro hall
      -- the words find terms of one record, since the identifier belongs to one record only
      obtain ⟨word, hword⟩ := List.exists_mem_of_ne_nil _ hwords
      obtain ⟨-, ⟨r, hr, hid, -⟩, -⟩ := hall word hword
      refine ⟨r, hr, hid, fun word hword => ?_⟩
      obtain ⟨term, ⟨r', hr', hid', hterm⟩, hfinds⟩ := hall word hword
      obtain rfl := eq_of_id_eq (lasting_ids_nodup events) hr' hr (hid'.trans hid.symm)
      exact ⟨term, hterm, hfinds⟩
    · rintro ⟨r, hr, hid, hall⟩ word hword
      obtain ⟨term, hterm, hfinds⟩ := hall word hword
      exact ⟨term, ⟨r, hr, hid, hterm⟩, hfinds⟩
  · rw [termCount, ← Dict.length_keys]
    refine List.Perm.length_eq ?_
    refine (List.perm_ext_iff_of_nodup (Dict.keys_nodup _) (List.nodup_dedup _)).mpr fun term => ?_
    rw [hlists.mem_keys, List.mem_dedup, List.mem_flatMap]
    simp only [h.inStep _ _]
    constructor
    · rintro ⟨id, r, hr, -, hterm⟩
      exact ⟨r, hr, hterm⟩
    · rintro ⟨r, hr, hterm⟩
      exact ⟨r.id, r, hr, rfl, hterm⟩

/-- A term is lost before the index is emptied; then a record is put in again with more terms, and
one is asked to go that is not there. -/
theorem search?_finds_held_extended :
    let up : Record :=
      { timestamp := Instant.earliest, level := .info, message := "up", file := "a.log",
        raw := "up", id := 1 }
    let extended : Record := { up with message := "up and running" }
    let down : Record := { up with message := "down" }
    let events : List Event := [.put up, .put down, .wipe, .put up, .put extended, .drop 2]
    Renews events ∧ ∃ scores, (after {} events).search? "run" false = some scores ∧
      ∀ id, (scores.get? id).isSome = true ↔ ∃ r ∈ [extended], r.id = id ∧
        ∀ word ∈ termsOf "run", ∃ term ∈ termsOfEntry r.toEntry, Finds {} false word term := by
  intro up extended down events
  have hwiped : Renews [.put up, .put down, .wipe] := @Renews.wipe [.put up, .put down]
  have hrenews : Renews events :=
    ((hwiped.concat (e := .put up) (by decide +kernel)).concat (e := .put extended)
      (by decide +kernel)).concat (e := .drop 2) (by decide +kernel)
  have hlasting : lasting events = [extended] := by decide +kernel
  have hfound := (search?_finds_held {} hrenews).1 "run" false (by decide +kernel)
  rw [hlasting] at hfound
  exact ⟨hrenews, hfound⟩

/-- A record that was replaced by one with other terms comes back when that one is taken out. -/
theorem search?_finds_removed :
    let old : Record :=
      { timestamp := Instant.earliest, level := .info, message := "alpha", file := "a.log",
        raw := "alpha", id := 1 }
    let events : List Event := [.put old, .put { old with message := "beta" }, .drop 1]
    lasting events = [] ∧ (after {} events).termCount = 1 ∧
      ((after {} events).search? "alpha" false).any (·.contains 1) = true := by
  decide +kernel

end TextIndex
end Index
end LogLens
