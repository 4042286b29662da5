/-
Scores are sums over single occurrences.

A word finds a term in one of three ways: as the term itself, as its beginning, or within a small
edit distance.  The score of a record is the sum of what its occurrences of such terms are worth,
added way by way and within a way in ascending order of the terms.  None of this looks at other
records: the score of a record in any index is the one it has in an index of its own
(`get?_wordScores_own`, `get?_search?_own`).
-/
import LogLens.Proofs.Index.EditDistance
import LogLens.Proofs.Index.Postings
import LogLens.Proofs.Index.PrefixRange

namespace LogLens
namespace Index

/-! ## Ways to find a term -/

/-- Whether a word of a query finds a term. -/
def Finds (rules : IndexRules) (fuzzy : Bool) (word term : String) : Prop :=
  term = word ∨
  (rules.prefixMinLength ≤ word.length ∧ word.toList <+: term.toList) ∨
  (fuzzy = true ∧ editDistance word.toList term.toList ≤ rules.maxEdits word.length)

/-- The ways in which a word finds a term, in the order in which scores are added. -/
inductive Way where
  | exact
  | beginning
  | near

namespace Way

def all : List Way := [exact, beginning, near]

/-- How much an occurrence of the term counts: 1, 0.5 and 0.3. -/
def weight : Way → Binary64
  | exact => Binary64.ofNat 1
  | beginning => Binary64.ofDecimal false 5 (-1)
  | near => Binary64.ofDecimal false 3 (-1)

/-- Whether the word finds the term in this way and in no earlier one. -/
def applies (rules : IndexRules) (fuzzy : Bool) (word term : String) : Way → Bool
  | exact => term == word
  | beginning =>
    decide (rules.prefixMinLength ≤ word.length) && (TextIndex.startsWith term word && term != word)
  | near =>
    fuzzy && (rules.maxEdits word.length != 0 &&
      (!(term == word ||
          decide (rules.prefixMinLength ≤ word.length) && TextIndex.startsWith term word) &&
        (boundedDistance? word term (rules.maxEdits word.length)).isSome))

end Way

theorem eq_of_edits_zero {s t : List Char} (h : Edits s t 0) : s = t := by
  generalize hn : 0 = n at h
  induction h with
  | done => rfl
  | keep a _ ih => rw [ih hn]
  | substitute a b _ _ => exact absurd hn (Nat.succ_ne_zero _).symm
  | delete a _ _ => exact absurd hn (Nat.succ_ne_zero _).symm
  | insert b _ _ => exact absurd hn (Nat.succ_ne_zero _).symm

theorem isSome_boundedDistance?_iff {s t : String} {limit : Nat} :
    (boundedDistance? s t limit).isSome = true ↔ editDistance s.toList t.toList ≤ limit := by
  rw [boundedDistance?_eq]
  by_cases h : editDistance s.toList t.toList ≤ limit <;> simp [h]

/-- A word finds a term when one of the ways applies. -/
theorem exists_way_iff {rules : IndexRules} {fuzzy : Bool} {word term : String} :
    (∃ way ∈ Way.all, way.applies rules fuzzy word term = true) ↔
      Finds rules fuzzy word term := by
  constructor
  · intro h
    obtain ⟨way, -, h⟩ := h
    cases way with
    | exact => exact Or.inl (by simpa [Way.applies] using h)
    | beginning =>
      simp only [Way.applies, Bool.and_eq_true, decide_eq_true_eq] at h
      exact Or.inr (Or.inl ⟨h.1, TextIndex.startsWith_iff.mp h.2.1⟩)
    | near =>
      simp only [Way.applies, Bool.and_eq_true] at h
      exact Or.inr (Or.inr ⟨h.1, isSome_boundedDistance?_iff.mp h.2.2.2⟩)
  · intro h
    by_cases heq : term = word
    · exact ⟨.exact, by simp [Way.all], by simp [Way.applies, heq]⟩
    by_cases hbegin : rules.prefixMinLength ≤ word.length ∧ word.toList <+: term.toList
    · refine ⟨.beginning, by simp [Way.all], ?_⟩
      simp [Way.applies, heq, hbegin.1, TextIndex.startsWith_iff.mpr hbegin.2]
    · obtain ⟨hfuzzy, hle⟩ : fuzzy = true ∧ _ := by
        rcases h with h | h | h
        · exact absurd h heq
        · exact absurd h hbegin
        · exact h
      -- without an edit only the word itself would be found
      have hedits : rules.maxEdits word.length ≠ 0 := by
        intro h0
        rw [h0, Nat.le_zero] at hle
        have hsame := eq_of_edits_zero (hle ▸ edits_editDistance word.toList term.toList)
        exact heq (String.toList_injective hsame.symm)
      have hnot : (decide (rules.prefixMinLength ≤ word.length) &&
          TextIndex.startsWith term word) = false := by
        rw [Bool.eq_false_iff]
        intro hb
        rw [Bool.and_eq_true, decide_eq_true_eq, TextIndex.startsWith_iff] at hb
        exact hbegin hb
      refine ⟨.near, by simp [Way.all], ?_⟩
      simp [Way.applies, hfuzzy, hedits, heq, hnot, isSome_boundedDistance?_iff.mpr hle]

namespace TextIndex

/-! ## Sums of worths -/

/-- What one occurrence adds to the score of its record. -/
def worth (rules : IndexRules) (weight : Binary64) (p : Posting) : RecordId × Binary64 :=
  (p.id, ((rules.boost p.field).mul weight).mul (Binary64.ofNat p.count))

def addWorth (scores : Scores) (w : RecordId × Binary64) : Scores :=
  scores.alter w.1 fun score => some ((score.getD Binary64.zero).add w.2)

/-- The sum of worths, if there are any. -/
def total (worths : List Binary64) : Option Binary64 :=
  worths.foldl (fun score w => some ((score.getD Binary64.zero).add w)) none

theorem isSome_total {worths : List Binary64} : (total worths).isSome = true ↔ worths ≠ [] := by
  induction worths using List.reverseRecOn with
  | nil => simp [total]
  | append_singleton worths w _ => simp [total]

theorem get?_foldl_addWorth (worths : List (RecordId × Binary64)) (scores : Scores)
    (id : RecordId) :
    (worths.foldl addWorth scores).get? id =
      ((worths.filter (·.1 = id)).map (·.2)).foldl
        (fun score w => some ((score.getD Binary64.zero).add w)) (scores.get? id) := by
  induction worths generalizing scores with
  | nil => rfl
  | cons w worths ih =>
    rw [List.foldl_cons, ih, addWorth, Dict.get?_alter]
    by_cases hid : w.1 = id
    · rw [if_pos hid.symm, List.filter_cons_of_pos (by simpa using hid), hid]
      rfl
    · rw [if_neg (Ne.symm hid), List.filter_cons_of_neg (by simpa using hid)]

theorem addScores_eq (rules : IndexRules) (weight : Binary64) (scores : Scores)
    (list : List Posting) :
    addScores rules weight scores list = (list.map (worth rules weight)).foldl addWorth scores := by
  rw [addScores, List.foldl_map]
  rfl

theorem foldl_addScores_eq (rules : IndexRules) (weight : Binary64) (scores : Scores)
    (entries : List (String × List Posting)) :
    entries.foldl (fun s e => addScores rules weight s e.2) scores =
      (entries.flatMap fun e => e.2.map (worth rules weight)).foldl addWorth scores := by
  rw [List.foldl_flatMap]
  simp only [addScores_eq]

/-- What the entries of a dictionary of occurrences are worth to a word, in the order of adding. -/
def worths (rules : IndexRules) (fuzzy : Bool) (word : String)
    (entries : List (String × List Posting)) : List (RecordId × Binary64) :=
  Way.all.flatMap fun way =>
    (entries.filter fun e => way.applies rules fuzzy word e.1).flatMap fun e =>
      e.2.map (worth rules way.weight)

theorem filter_entries_eq (d : Dict String (List Posting)) (word : String) :
    ((d.entries.filter fun e => e.1 == word).flatMap (·.2)) = (d.get? word).getD [] := by
  have hone : (d.entries.filter fun e => e.1 == word) = ((d.get? word).map (word, ·)).toList := by
    rw [← d.filter_entries word]
    rfl
  rw [hone]
  cases d.get? word with
  | none => rfl
  | some list => exact List.flatMap_singleton _ _

/-- The walk over the terms adds up the worths of all occurrences that the word finds. -/
theorem wordScores_eq (ix : TextIndex) (word : String) (fuzzy : Bool) :
    ix.wordScores word fuzzy =
      (worths ix.rules fuzzy word ix.postings.entries).foldl addWorth Dict.empty := by
  have hexact : addScores ix.rules exactWeight Dict.empty ((ix.postings.get? word).getD []) =
      ((ix.postings.entries.filter fun e => Way.exact.applies ix.rules fuzzy word e.1).flatMap
        fun e => e.2.map (worth ix.rules exactWeight)).foldl addWorth Dict.empty := by
    rw [addScores_eq, ← filter_entries_eq, List.map_flatMap]
    rfl
  have hbeginning : ∀ scores : Scores,
      (if ix.allowsPrefix word then
        (ix.prefixEntries word).foldl (fun s e => addScores ix.rules prefixWeight s e.2) scores
      else scores) =
      ((ix.postings.entries.filter fun e => Way.beginning.applies ix.rules fuzzy word e.1).flatMap
        fun e => e.2.map (worth ix.rules prefixWeight)).foldl addWorth scores := by
    intro scores
    by_cases h : ix.rules.prefixMinLength ≤ word.length
    · simp only [allowsPrefix, h, decide_true, if_true, Way.applies, Bool.true_and]
      rw [prefixEntries_eq, foldl_addScores_eq]
    · simp [allowsPrefix, h, Way.applies]
  have hnear : ∀ scores : Scores,
      (if fuzzy then
        (ix.fuzzyEntries word).foldl (fun s e => addScores ix.rules fuzzyWeight s e.2) scores
      else scores) =
      ((ix.postings.entries.filter fun e => Way.near.applies ix.rules fuzzy word e.1).flatMap
        fun e => e.2.map (worth ix.rules fuzzyWeight)).foldl addWorth scores := by
    intro scores
    cases fuzzy with
    | false => simp [Way.applies]
    | true =>
      rw [if_pos rfl, foldl_addScores_eq, fuzzyEntries]
      by_cases h : ix.rules.maxEdits word.length = 0
      · simp [h, Way.applies]
      · have hedits : (ix.rules.maxEdits word.length != 0) = true := by simpa using h
        simp [h, hedits, Way.applies, allowsPrefix]
  rw [wordScores]
  simp only [hexact, hbeginning, hnear]
  rw [worths, ← List.foldl_append, ← List.foldl_append]
  simp [Way.all, Way.weight, exactWeight, prefixWeight, fuzzyWeight]

/-! ## The records that a word finds -/

theorem mem_map_worths {rules : IndexRules} {fuzzy : Bool} {word : String}
    {entries : List (String × List Posting)} {id : RecordId} :
    (∃ w ∈ worths rules fuzzy word entries, w.1 = id) ↔
      ∃ e ∈ entries, Finds rules fuzzy word e.1 ∧ ∃ p ∈ e.2, p.id = id := by
  simp only [worths, List.mem_flatMap, List.mem_filter, List.mem_map]
  constructor
  · intro h
    obtain ⟨w, ⟨way, hway, e, ⟨he, happlies⟩, p, hp, rfl⟩, hid⟩ := h
    exact ⟨e, he, exists_way_iff.mp ⟨way, hway, happlies⟩, p, hp, hid⟩
  · intro h
    obtain ⟨e, he, hfinds, p, hp, hid⟩ := h
    obtain ⟨way, hway, happlies⟩ := exists_way_iff.mpr hfinds
    exact ⟨_, ⟨way, hway, e, ⟨he, happlies⟩, p, hp, rfl⟩, hid⟩

theorem isSome_wordScores {ix : TextIndex} {word : String} {fuzzy : Bool} {id : RecordId} :
    ((ix.wordScores word fuzzy).get? id).isSome = true ↔
      ∃ e ∈ ix.postings.entries, Finds ix.rules fuzzy word e.1 ∧ ∃ p ∈ e.2, p.id = id := by
  rw [wordScores_eq, get?_foldl_addWorth, Dict.get?_empty, ← mem_map_worths]
  refine isSome_total.trans ?_
  rw [Ne, List.map_eq_nil_iff, List.filter_eq_nil_iff]
  push Not
  simp only [decide_eq_true_eq]

/-- A word finds the records with a term that it finds. -/
theorem isSome_wordScores_ofRecords {rules : IndexRules} {records : List Record} {word : String}
    {fuzzy : Bool} {id : RecordId} :
    (((ofRecords rules records).wordScores word fuzzy).get? id).isSome = true ↔
      ∃ r ∈ records, r.id = id ∧ ∃ term ∈ termsOfEntry r.toEntry, Finds rules fuzzy word term := by
  rw [isSome_wordScores, rules_ofRecords]
  constructor
  · intro h
    obtain ⟨e, he, hfinds, p, hp, hid⟩ := h
    have hget := Dict.get?_eq_some_iff.mpr he
    rw [get?_postings, nonempty?_eq_some_iff] at hget
    rw [← hget.1] at hp
    obtain ⟨r, hr, hp⟩ := List.mem_flatMap.mp hp
    refine ⟨r, hr, (id_of_mem_occurrencesOf hp).symm.trans hid, e.1, ?_, hfinds⟩
    exact occurrencesOf_ne_nil_iff.mp (List.ne_nil_of_mem hp)
  · intro h
    obtain ⟨r, hr, hid, term, hterm, hfinds⟩ := h
    obtain ⟨p, hp⟩ := List.exists_mem_of_ne_nil _ (occurrencesOf_ne_nil_iff.mpr hterm)
    have hmem : p ∈ records.flatMap (occurrencesOf term) := List.mem_flatMap.mpr ⟨r, hr, hp⟩
    refine ⟨(term, records.flatMap (occurrencesOf term)), ?_, hfinds, p, hmem,
      (id_of_mem_occurrencesOf hp).trans hid⟩
    rw [← Dict.get?_eq_some_iff, get?_postings, nonempty?_eq_some_iff]
    exact ⟨rfl, List.ne_nil_of_mem hmem⟩

/-! ## Scores without regard to other records -/

theorem flatMap_filter_eq {α β : Type} (p : α → Bool) (f : α → List β) (l : List α) :
    (l.filter p).flatMap f = l.flatMap fun a => if p a then f a else [] := by
  induction l with
  | nil => rfl
  | cons a l ih =>
    rw [List.flatMap_cons, ← ih]
    by_cases h : p a = true
    · rw [List.filter_cons_of_pos h, List.flatMap_cons, if_pos h]
    · rw [List.filter_cons_of_neg h, if_neg h, List.nil_append]

/-- Leaving out what `f` turns into nothing changes no concatenation. -/
theorem flatMap_filterMap_nonempty? {α : Type} (entries : List (String × List Posting))
    (keep : Posting → Bool) (f : String → List Posting → List α) (hf : ∀ term, f term [] = []) :
    (entries.filterMap fun e => (nonempty? (e.2.filter keep)).map fun list => (e.1, list)).flatMap
        (fun e => f e.1 e.2) =
      entries.flatMap fun e => f e.1 (e.2.filter keep) := by
  induction entries with
  | nil => rfl
  | cons e entries ih =>
    rw [List.flatMap_cons, ← ih, List.filterMap_cons]
    by_cases h : e.2.filter keep = []
    · rw [h, hf]
      simp [nonempty?]
    · simp [nonempty?, h]

/-- The occurrences in one record, out of the index of all, are those of the record on its own. -/
theorem entries_own (rules : IndexRules) {records : List Record}
    (h : (records.map (·.id)).Nodup) {r : Record} (hr : r ∈ records) :
    ((ofRecords rules records).postings.entries.filterMap fun e =>
        (nonempty? (e.2.filter (·.id = r.id))).map fun list => (e.1, list)) =
      (ofRecords rules [r]).postings.entries := by
  have hown : ∀ term, ((records.flatMap (occurrencesOf term)).filter (·.id = r.id)) =
      occurrencesOf term r := by
    intro term
    have hsplit : ∀ l : List Record, (∀ r' ∈ l, r'.id = r.id → r' = r) → (l.map (·.id)).Nodup →
        (l.flatMap (occurrencesOf term)).filter (·.id = r.id) =
          if r ∈ l then occurrencesOf term r else [] := by
      intro l hl hnodup
      induction l with
      | nil => rfl
      | cons r' l ih =>
        rw [List.map_cons, List.nodup_cons] at hnodup
        rw [List.flatMap_cons, List.filter_append,
          ih (fun x hx => hl x (List.mem_cons_of_mem r' hx)) hnodup.2]
        by_cases hid : r'.id = r.id
        · obtain rfl := hl r' List.mem_cons_self hid
          have hnot : r' ∉ l := fun hmem => hnodup.1 (List.mem_map_of_mem hmem)
          rw [if_neg hnot, if_pos List.mem_cons_self, List.append_nil]
          exact List.filter_eq_self.mpr fun p hp => by simpa using id_of_mem_occurrencesOf hp
        · have hne : r ≠ r' := fun heq => hid (congrArg (·.id) heq.symm)
          rw [List.filter_eq_nil_iff.mpr fun p hp => by
            simpa [id_of_mem_occurrencesOf hp] using hid, List.nil_append]
          simp only [List.mem_cons, hne, false_or]
    rw [hsplit records (fun r' hr' hid => eq_of_id_eq h hr' hr hid) h, if_pos hr]
  refine Dict.eq_of_mem_iff ?_ (ofRecords rules [r]).postings.ascending fun e => ?_
  · refine List.Pairwise.filterMap _ (fun a b hab a' ha' b' hb' => ?_)
      (ofRecords rules records).postings.ascending
    obtain ⟨-, -, rfl⟩ := Option.map_eq_some_iff.mp ha'
    obtain ⟨-, -, rfl⟩ := Option.map_eq_some_iff.mp hb'
    exact hab
  · rw [← Prod.mk.eta (p := e), ← Dict.get?_eq_some_iff, get?_postings, List.flatMap_singleton,
      List.mem_filterMap]
    constructor
    · intro h
      obtain ⟨e', he', hmap⟩ := h
      obtain ⟨list, hlist, heq⟩ := Option.map_eq_some_iff.mp hmap
      obtain ⟨hterm, hlist'⟩ := Prod.mk.inj heq
      have hget := Dict.get?_eq_some_iff.mpr he'
      rw [get?_postings, nonempty?_eq_some_iff] at hget
      rw [← hlist', ← hlist, ← hget.1, hown, hterm]
    · intro h
      have hne := (nonempty?_eq_some_iff.mp h).2
      obtain ⟨p, hp⟩ := List.exists_mem_of_ne_nil _ hne
      have hmem : p ∈ records.flatMap (occurrencesOf e.1) := List.mem_flatMap.mpr ⟨r, hr, hp⟩
      refine ⟨(e.1, records.flatMap (occurrencesOf e.1)), ?_, ?_⟩
      · rw [← Dict.get?_eq_some_iff, get?_postings, nonempty?_eq_some_iff]
        exact ⟨rfl, List.ne_nil_of_mem hmem⟩
      · show (nonempty? _).map _ = _
        rw [hown, h]
        rfl

theorem filter_worths (rules : IndexRules) (fuzzy : Bool) (word : String)
    (entries : List (String × List Posting)) (id : RecordId) :
    (worths rules fuzzy word entries).filter (·.1 = id) =
      worths rules fuzzy word (entries.filterMap fun e =>
        (nonempty? (e.2.filter (·.id = id))).map fun list => (e.1, list)) := by
  rw [worths, worths, List.filter_flatMap]
  refine List.flatMap_congr fun way _ => ?_
  rw [flatMap_filter_eq, flatMap_filter_eq, List.filter_flatMap,
    flatMap_filterMap_nonempty? entries (fun p => p.id = id)
      (fun term list => if way.applies rules fuzzy word term then
        list.map (worth rules way.weight) else []) (fun term => by simp)]
  refine List.flatMap_congr fun e _ => ?_
  by_cases h : way.applies rules fuzzy word e.1 = true
  · rw [if_pos h, if_pos h, List.filter_map]
    rfl
  · rw [if_neg h, if_neg h, List.filter_nil]

/-- The score of a record is the one it has on its own. -/
theorem get?_wordScores_own (rules : IndexRules) {records : List Record}
    (h : (records.map (·.id)).Nodup) {r : Record} (hr : r ∈ records) (word : String)
    (fuzzy : Bool) :
    ((ofRecords rules records).wordScores word fuzzy).get? r.id =
      ((ofRecords rules [r]).wordScores word fuzzy).get? r.id := by
  have hself : ∀ l : List Record, (l.map (·.id)).Nodup → r ∈ l →
      ((ofRecords rules l).wordScores word fuzzy).get? r.id =
        total ((worths rules fuzzy word (ofRecords rules [r]).postings.entries).map (·.2)) := by
    intro l hl hmem
    rw [wordScores_eq, get?_foldl_addWorth, Dict.get?_empty, filter_worths, rules_ofRecords,
      entries_own rules hl hmem]
    rfl
  rw [hself records h hr, hself [r] (by simp) List.mem_cons_self]

/-! ## Texts of several words -/

/-- The sum of two scores, if there are both. -/
def addBoth (s t : Option Binary64) : Option Binary64 :=
  s.bind fun x => t.map fun y => x.add y

/-- Adds up the scores that the words of a text give to one record; every word has to give one. -/
def combined : List (Option Binary64) → Option Binary64
  | [] => none
  | first :: rest => rest.foldl addBoth first

theorem get?_combine (current scores : Scores) (id : RecordId) :
    (combine current scores).get? id = addBoth (current.get? id) (scores.get? id) := by
  have hascending : (current.entries.filterMap fun e =>
      (scores.get? e.1).map fun other => (e.1, e.2.add other)).Pairwise
        fun a b => Key.lt a.1 b.1 := by
    refine List.Pairwise.filterMap _ (fun a b hab a' ha' b' hb' => ?_) current.ascending
    obtain ⟨-, -, rfl⟩ := Option.map_eq_some_iff.mp ha'
    obtain ⟨-, -, rfl⟩ := Option.map_eq_some_iff.mp hb'
    exact hab
  refine Option.ext fun x => ?_
  rw [Dict.get?_eq_some_iff, combine, Dict.entries_ofList hascending, List.mem_filterMap]
  simp only [addBoth, Option.map_eq_some_iff, Prod.mk.injEq, Option.bind_eq_some_iff]
  constructor
  · intro h
    obtain ⟨e, he, other, hother, rfl, rfl⟩ := h
    exact ⟨e.2, Dict.get?_eq_some_iff.mpr he, other, hother, rfl⟩
  · intro h
    obtain ⟨y, hy, other, hother, rfl⟩ := h
    exact ⟨(id, y), Dict.get?_eq_some_iff.mp hy, other, hother, rfl, rfl⟩

theorem foldl_addBoth_none (scores : List (Option Binary64)) :
    scores.foldl addBoth none = none := by
  induction scores with
  | nil => rfl
  | cons t scores ih => exact ih

/-- Ending early, when no record is left, changes nothing. -/
theorem get?_allWords (ix : TextIndex) (fuzzy : Bool) (current : Scores) (words : List String)
    (id : RecordId) :
    (ix.allWords fuzzy current words).get? id =
      (words.map fun word => (ix.wordScores word fuzzy).get? id).foldl addBoth
        (current.get? id) := by
  induction words generalizing current with
  | nil => rfl
  | cons word words ih =>
    rw [allWords]
    split
    · rename_i h
      rw [Dict.isEmpty_iff.mp h id, foldl_addBoth_none]
    · rw [ih, get?_combine]
      rfl

theorem search?_eq_none_iff {ix : TextIndex} {text : String} {fuzzy : Bool} :
    ix.search? text fuzzy = none ↔ termsOf text = [] := by
  rw [search?]
  cases termsOf text <;> simp

theorem termsOf_ne_nil {ix : TextIndex} {text : String} {fuzzy : Bool} {scores : Scores}
    (h : ix.search? text fuzzy = some scores) : termsOf text ≠ [] := by
  intro hnil
  rw [search?_eq_none_iff.mpr hnil] at h
  exact absurd h (by simp)

theorem get?_search? {ix : TextIndex} {text : String} {fuzzy : Bool} {scores : Scores}
    (h : ix.search? text fuzzy = some scores) (id : RecordId) :
    scores.get? id =
      combined ((termsOf text).map fun word => (ix.wordScores word fuzzy).get? id) := by
  rw [search?] at h
  cases hwords : termsOf text with
  | nil => simp [hwords] at h
  | cons word rest =>
    simp only [hwords, Option.some.injEq] at h
    rw [← h, get?_allWords]
    rfl

theorem isSome_foldl_addBoth {scores : List (Option Binary64)} {first : Option Binary64} :
    (scores.foldl addBoth first).isSome = true ↔
      first.isSome = true ∧ ∀ s ∈ scores, s.isSome = true := by
  induction scores generalizing first with
  | nil => simp
  | cons t scores ih =>
    rw [List.foldl_cons, ih]
    cases first with
    | none => simp [addBoth]
    | some x => simp [addBoth]

theorem isSome_combined {scores : List (Option Binary64)} (h : scores ≠ []) :
    (combined scores).isSome = true ↔ ∀ s ∈ scores, s.isSome = true := by
  cases scores with
  | nil => exact absurd rfl h
  | cons first rest =>
    rw [combined, isSome_foldl_addBoth]
    simp

/-- The score of a record for a text, in an index of its own. -/
def ownScore (rules : IndexRules) (text : String) (fuzzy : Bool) (r : Record) :
    Option Binary64 :=
  ((ofRecords rules [r]).search? text fuzzy).bind fun scores => scores.get? r.id

/-- A search gives every record the score it has on its own, and no other record a score. -/
theorem get?_search?_own (rules : IndexRules) {records : List Record}
    (h : (records.map (·.id)).Nodup) {text : String} {fuzzy : Bool} {scores : Scores}
    (hs : (ofRecords rules records).search? text fuzzy = some scores) {r : Record}
    (hr : r ∈ records) : scores.get? r.id = ownScore rules text fuzzy r := by
  rw [get?_search? hs, ownScore]
  cases hown : (ofRecords rules [r]).search? text fuzzy with
  | none => exact absurd (search?_eq_none_iff.mp hown) (termsOf_ne_nil hs)
  | some own =>
    rw [Option.bind_some, get?_search? hown]
    refine congrArg combined (List.map_congr_left fun word _ => ?_)
    exact get?_wordScores_own rules h hr word fuzzy

/-- A search finds the records in which every word of the text finds a term. -/
theorem isSome_get?_search? {rules : IndexRules} {records : List Record}
    (h : (records.map (·.id)).Nodup) {text : String} {fuzzy : Bool} {scores : Scores}
    (hs : (ofRecords rules records).search? text fuzzy = some scores) {id : RecordId} :
    (scores.get? id).isSome = true ↔
      ∃ r ∈ records, r.id = id ∧ ∀ word ∈ termsOf text, ∃ term ∈ termsOfEntry r.toEntry,
        Finds rules fuzzy word term := by
  have hwords := termsOf_ne_nil hs
  rw [get?_search? hs, isSome_combined (by simpa using hwords)]
  simp only [List.forall_mem_map, isSome_wordScores_ofRecords]
  constructor
  · intro hall
    obtain ⟨word, hword⟩ := List.exists_mem_of_ne_nil _ hwords
    obtain ⟨r, hr, hid, -⟩ := hall word hword
    refine ⟨r, hr, hid, fun word hword => ?_⟩
    obtain ⟨r', hr', hid', hterm⟩ := hall word hword
    obtain rfl := eq_of_id_eq h hr' hr (hid'.trans hid.symm)
    exact hterm
  · intro hall word hword
    obtain ⟨r, hr, hid, hterms⟩ := hall
    exact ⟨r, hr, hid, hterms word hword⟩

end TextIndex
end Index
end LogLens
