/-
Identifiers are names and nothing more.

Renaming the records of an index by a permutation of the identifiers gives the index of the renamed
records: every change of an index commutes with it (`Renamed.removeOne`, `Renamed.addOne`).  So two
ways to draw fresh identifiers for the same entries lead to indexes that differ in the names of the
new records only (`sameButNew_add`).
-/
import LogLens.Proofs.Index.History

namespace LogLens

open Index

/-- Identifiers that are all different can be renamed into others without touching those of a third
kind. -/
theorem exists_perm_map_eq {α : Type} [DecidableEq α] {kept : α → Prop} {a b : List α}
    (hlength : a.length = b.length) (ha : a.Nodup) (hb : b.Nodup) (hkept : ∀ x ∈ a, ¬ kept x)
    (hkept' : ∀ x ∈ b, ¬ kept x) :
    ∃ σ : Equiv.Perm α, a.map σ = b ∧ ∀ x, kept x → σ x = x := by
  induction a generalizing b with
  | nil =>
    rw [List.length_nil] at hlength
    exact ⟨1, by rw [List.length_eq_zero_iff.mp hlength.symm]; rfl, fun x _ => rfl⟩
  | cons x a ih =>
    cases b with
    | nil => exact absurd hlength (by simp)
    | cons y b =>
      rw [List.nodup_cons] at ha hb
      obtain ⟨σ, hmap, hfix⟩ := ih (Nat.succ.inj hlength) ha.2 hb.2
        (fun z hz => hkept z (List.mem_cons_of_mem x hz))
        (fun z hz => hkept' z (List.mem_cons_of_mem y hz))
      -- one more exchange sends the first identifier to its place
      refine ⟨Equiv.swap (σ x) y * σ, ?_, fun z hz => ?_⟩
      · rw [List.map_cons, Equiv.Perm.mul_apply, Equiv.swap_apply_left]
        refine congrArg (y :: ·) (Eq.trans (List.map_congr_left fun z hz => ?_) hmap)
        rw [Equiv.Perm.mul_apply]
        refine Equiv.swap_apply_of_ne_of_ne (fun heq => ?_) fun heq => ?_
        · exact ha.1 (σ.injective heq ▸ hz)
        · exact hb.1 (heq ▸ hmap ▸ List.mem_map_of_mem hz)
      · rw [Equiv.Perm.mul_apply, hfix z hz]
        refine Equiv.swap_apply_of_ne_of_ne (fun heq => ?_) fun heq => ?_
        · have hzx : z = x := σ.injective ((hfix z hz).trans heq)
          exact hkept x List.mem_cons_self (hzx ▸ hz)
        · exact hkept' y List.mem_cons_self (heq ▸ hz)

/-! ## Renamed records -/

def Record.rename (σ : Equiv.Perm RecordId) (r : Record) : Record :=
  { r with id := σ r.id }

def Slot.rename (σ : Equiv.Perm RecordId) (slot : Slot) : Slot :=
  { slot with record := slot.record.rename σ }

/-- Entries with new identifiers are renamed records. -/
theorem map_rename_eq {σ : Equiv.Perm RecordId} {records records' : List Record}
    (hentries : records.map (·.toEntry) = records'.map (·.toEntry))
    (hids : (records.map (·.id)).map σ = records'.map (·.id)) :
    records.map (Record.rename σ) = records' := by
  induction records generalizing records' with
  | nil => exact (List.map_eq_nil_iff.mp hentries.symm).symm
  | cons r records ih =>
    cases records' with
    | nil => exact absurd hentries (by simp)
    | cons r' records' =>
      simp only [List.map_cons, List.cons.injEq] at hentries hids ⊢
      refine ⟨?_, ih hentries.2 hids.2⟩
      rw [Record.rename, hentries.1, hids.1]

namespace Index

def Posting.rename (σ : Equiv.Perm RecordId) (p : Posting) : Posting :=
  { p with id := σ p.id }

namespace TextIndex

variable {σ : Equiv.Perm RecordId}

theorem occurrences_rename (r : Record) :
    occurrences (r.rename σ) = (occurrences r).map fun p => (p.1, p.2.rename σ) := by
  rw [occurrences, occurrences, List.map_flatMap]
  refine List.flatMap_congr fun field _ => ?_
  rw [List.map_map]
  rfl

theorem recordTerms_rename (r : Record) : recordTerms (r.rename σ) = recordTerms r := by
  rw [recordTerms, recordTerms, occurrences_rename, List.map_map]
  rfl

/-- The second index is the first one with other names for the records. -/
structure Renamed (σ : Equiv.Perm RecordId) (ix ix' : TextIndex) : Prop where
  rules : ix'.rules = ix.rules
  postings : ∀ term,
    ix'.postings.get? term = (ix.postings.get? term).map (List.map (Posting.rename σ))
  terms : ∀ id, ix'.termsByRecord.get? (σ id) = ix.termsByRecord.get? id

namespace Renamed

variable {ix ix' : TextIndex}

theorem getD_map_rename (o : Option (List Posting)) :
    (o.map (List.map (Posting.rename σ))).getD [] = (o.getD []).map (Posting.rename σ) := by
  cases o <;> rfl

theorem get?_foldl_addPosting_rename (list : List (String × Posting))
    {d d' : Dict String (List Posting)}
    (h : ∀ term, d'.get? term = (d.get? term).map (List.map (Posting.rename σ))) (term : String) :
    ((list.map fun p => (p.1, p.2.rename σ)).foldl addPosting d').get? term =
      ((list.foldl addPosting d).get? term).map (List.map (Posting.rename σ)) := by
  induction list generalizing d d' with
  | nil => exact h term
  | cons p list ih =>
    refine ih fun term => ?_
    rw [addPosting, addPosting, Dict.get?_alter, Dict.get?_alter, h p.1, h term]
    by_cases hterm : term = p.1
    · rw [if_pos hterm, if_pos hterm, getD_map_rename]
      simp
    · rw [if_neg hterm, if_neg hterm]

theorem insert (h : Renamed σ ix ix') (r : Record) :
    Renamed σ (ix.insert r) (ix'.insert (r.rename σ)) := by
  refine ⟨?_, fun term => ?_, fun id => ?_⟩
  · rw [rules_insert, rules_insert, h.rules]
  · rw [postings_insert, postings_insert, occurrences_rename]
    exact get?_foldl_addPosting_rename _ h.postings term
  · rw [termsByRecord_insert, termsByRecord_insert, Dict.get?_insert, Dict.get?_insert,
      recordTerms_rename, h.terms]
    have hid : σ id = (r.rename σ).id ↔ id = r.id := σ.injective.eq_iff
    simp only [hid]

theorem get?_foldl_dropPostings_rename (id : RecordId) (terms : List String)
    {d d' : Dict String (List Posting)}
    (h : ∀ term, d'.get? term = (d.get? term).map (List.map (Posting.rename σ))) (term : String) :
    (terms.foldl (dropPostings (σ id)) d').get? term =
      ((terms.foldl (dropPostings id) d).get? term).map (List.map (Posting.rename σ)) := by
  induction terms generalizing d d' with
  | nil => exact h term
  | cons term' terms ih =>
    refine ih fun term => ?_
    have hfilter : ∀ list : List Posting,
        (list.map (Posting.rename σ)).filter (·.id ≠ σ id) =
          (list.filter (·.id ≠ id)).map (Posting.rename σ) := by
      intro list
      rw [List.filter_map]
      refine congrArg (List.map _) (List.filter_congr fun p _ => ?_)
      simp [Posting.rename]
    rw [dropPostings, dropPostings, Dict.get?_alter, Dict.get?_alter, h term', h term]
    by_cases hterm : term = term'
    · rw [if_pos hterm, if_pos hterm, getD_map_rename, hfilter]
      cases ((d.get? term').getD []).filter (·.id ≠ id) <;> rfl
    · rw [if_neg hterm, if_neg hterm]

theorem remove (h : Renamed σ ix ix') (id : RecordId) :
    Renamed σ (ix.remove id) (ix'.remove (σ id)) := by
  have hget := h.terms id
  cases hterms : ix.termsByRecord.get? id with
  | none =>
    rw [hterms] at hget
    simpa only [TextIndex.remove, hterms, hget] using h
  | some terms =>
    rw [hterms] at hget
    simp only [TextIndex.remove, hterms, hget]
    refine ⟨h.rules, get?_foldl_dropPostings_rename id terms h.postings, fun id' => ?_⟩
    show (ix'.termsByRecord.erase (σ id)).get? (σ id') = (ix.termsByRecord.erase id).get? id'
    rw [Dict.get?_erase, Dict.get?_erase, h.terms]
    simp only [σ.injective.eq_iff]

theorem ofRecords (rules : IndexRules) (records : List Record) :
    Renamed σ (TextIndex.ofRecords rules records)
      (TextIndex.ofRecords rules (records.map (Record.rename σ))) := by
  induction records using List.reverseRecOn with
  | nil => exact ⟨rfl, fun _ => rfl, fun _ => rfl⟩
  | append_singleton records r ih =>
    rw [List.map_append, List.map_singleton, ofRecords_concat, ofRecords_concat]
    exact ih.insert r

end Renamed
end TextIndex
end Index

namespace LogIndex

variable {σ : Equiv.Perm RecordId} {ix ix' : LogIndex}

/-- The second index is the first one with other names for the records. -/
structure Renamed (σ : Equiv.Perm RecordId) (ix ix' : LogIndex) : Prop where
  rules : ix'.rules = ix.rules
  nextSeq : ix'.nextSeq = ix.nextSeq
  slots : ∀ id, ix'.slots.get? (σ id) = (ix.slots.get? id).map (Slot.rename σ)
  text : TextIndex.Renamed σ ix.text ix'.text
  stats : ix'.stats = ix.stats

namespace Renamed

theorem removeOne (h : Renamed σ ix ix') (id : RecordId) :
    Renamed σ (ix.removeOne id) (ix'.removeOne (σ id)) := by
  have hget := h.slots id
  cases hslot : ix.slots.get? id with
  | none =>
    rw [hslot] at hget
    simpa only [LogIndex.removeOne, hslot, hget, Option.map_none] using h
  | some slot =>
    rw [hslot] at hget
    simp only [LogIndex.removeOne, hslot, hget, Option.map_some]
    refine ⟨h.rules, h.nextSeq, fun id' => ?_, h.text.remove id, ?_⟩
    · show (ix'.slots.erase (σ id)).get? (σ id') = _
      rw [Dict.get?_erase, Dict.get?_erase, h.slots]
      by_cases hid : id' = id <;> simp [hid]
    · show FieldStats.removeEntry ix'.stats slot.record.toEntry = _
      rw [h.stats]

theorem addOne (h : Renamed σ ix ix') (r : Record) :
    Renamed σ (ix.addOne r) (ix'.addOne (r.rename σ)) := by
  have hrest := h.removeOne r.id
  refine ⟨hrest.rules, congrArg (· + 1) hrest.nextSeq, fun id => ?_, hrest.text.insert r, ?_⟩
  · show ((ix'.removeOne (σ r.id)).slots.insert (σ r.id)
        ⟨(ix'.removeOne (σ r.id)).nextSeq, r.rename σ⟩).get? (σ id) =
      (((ix.removeOne r.id).slots.insert r.id ⟨(ix.removeOne r.id).nextSeq, r⟩).get? id).map _
    rw [Dict.get?_insert, Dict.get?_insert, hrest.slots, hrest.nextSeq]
    by_cases hid : id = r.id
    · rw [if_pos (congrArg σ hid), if_pos hid]
      rfl
    · rw [if_neg fun heq => hid (σ.injective heq), if_neg hid]
  · show FieldStats.addEntry (ix'.removeOne (σ r.id)).stats r.toEntry = _
    rw [hrest.stats]
    rfl

/-- Adding renamed records to a renamed index gives the renamed result. -/
theorem add (h : Renamed σ ix ix') (records : List Record) :
    Renamed σ (ix.add records) (ix'.add (records.map (Record.rename σ))) := by
  induction records generalizing ix ix' with
  | nil => exact h
  | cons r records ih => exact ih (h.addOne r)

end Renamed

/-! ## Fresh identifiers -/

/-- Records whose identifiers differ from each other and from those that the index holds. -/
structure Fresh (ix : LogIndex) (records : List Record) : Prop where
  distinct : (records.map (·.id)).Nodup
  unused : ∀ r ∈ records, ix.get? r.id = none

/-- The last two indexes are the same, but for the names of records that the first one does not
hold. -/
def SameButNew (kept ix ix' : LogIndex) : Prop :=
  ∃ σ : Equiv.Perm RecordId, (∀ id r, kept.get? id = some r → σ id = id) ∧ Renamed σ ix ix'

/-- Names that an index does not hold do not show in it. -/
theorem Holds.renamed_self {rules : IndexRules} {slots : List Slot} (h : Holds rules ix slots)
    (hfix : ∀ id r, ix.get? id = some r → σ id = id) : Renamed σ ix ix := by
  have hheld : ∀ slot ∈ slots, σ slot.record.id = slot.record.id := by
    intro slot hslot
    have hget := (h.held _ slot).mpr ⟨hslot, rfl⟩
    refine hfix slot.record.id slot.record ?_
    rw [LogIndex.get?, hget]
    rfl
  have hsame : ∀ slot ∈ slots, slot.record.rename σ = slot.record := by
    intro slot hslot
    rw [Record.rename, hheld slot hslot]
  have hrecords : (slots.map (·.record)).map (Record.rename σ) = slots.map (·.record) := by
    rw [List.map_map]
    exact List.map_congr_left hsame
  have htext := TextIndex.Renamed.ofRecords (σ := σ) rules (slots.map (·.record))
  rw [hrecords, ← h.text] at htext
  refine ⟨rfl, rfl, fun id => Option.ext fun slot => ?_, htext, rfl⟩
  rw [h.held, Option.map_eq_some_iff]
  constructor
  · intro hslot
    obtain ⟨hmem, hid⟩ := hslot
    -- what is held under the new name is held under the old one
    have hold : slot.record.id = id := σ.injective ((hheld slot hmem).trans hid)
    refine ⟨slot, (h.held id slot).mpr ⟨hmem, hold⟩, ?_⟩
    rw [Slot.rename, hsame slot hmem]
  · intro hslot
    obtain ⟨old, hget, rfl⟩ := hslot
    obtain ⟨hmem, rfl⟩ := (h.held id old).mp hget
    rw [Slot.rename, hsame old hmem]
    exact ⟨hmem, (hheld old hmem).symm⟩

/-- Two ways to name new entries lead to the same index, but for the new names. -/
theorem sameButNew_add (rules : IndexRules) (history : List Change) {records records' : List Record}
    (hentries : records.map (·.toEntry) = records'.map (·.toEntry))
    (h : Fresh (after rules history) records) (h' : Fresh (after rules history) records') :
    SameButNew (after rules history) ((after rules history).add records)
      ((after rules history).add records') := by
  obtain ⟨slots, hholds, -⟩ := exists_holds rules history
  have hlength : (records.map (·.id)).length = (records'.map (·.id)).length := by
    have := congrArg List.length hentries
    simpa using this
  have hunused : ∀ records : List Record, Fresh (after rules history) records →
      ∀ id ∈ records.map (·.id), ¬ ∃ r, (after rules history).get? id = some r := by
    intro records h id hid hheld
    obtain ⟨r, hr, rfl⟩ := List.mem_map.mp hid
    obtain ⟨r', hget⟩ := hheld
    rw [h.unused r hr] at hget
    exact absurd hget (by simp)
  obtain ⟨σ, hmap, hfix⟩ := exists_perm_map_eq hlength h.distinct h'.distinct
    (hunused records h) (hunused records' h')
  have hkept : ∀ id r, (after rules history).get? id = some r → σ id = id :=
    fun id r hget => hfix id ⟨r, hget⟩
  refine ⟨σ, hkept, ?_⟩
  rw [← map_rename_eq hentries hmap]
  exact (hholds.renamed_self hkept).add records

end LogIndex
end LogLens
