/-
The walks of a word are one scan over all terms.

A word is looked up, then the terms behind it are walked as long as they begin with it, and at last
all terms are compared with it.  `Way.of?` says of a single term whether the word finds it and how
much an occurrence then counts, by the first rule that holds.  A scan that asks this of every term
once, and goes through what it finds by way and then by term, adds up the same scores in the same
order (`wordScores_eq_scan`).
-/
import LogLens.Proofs.Index.Scores

namespace LogLens
namespace Index

/-! ## The way of a term -/

namespace Way

/-- The way in which a word finds a term, if it does. -/
def of? (rules : IndexRules) (fuzzy : Bool) (word term : String) : Option Way :=
  if term = word then some exact
  else if rules.prefixMinLength ≤ word.length ∧ word.toList <+: term.toList then some beginning
  else if fuzzy = true ∧ editDistance word.toList term.toList ≤ rules.maxEdits word.length then
    some near
  else none

variable {rules : IndexRules} {fuzzy : Bool} {word term : String} {way : Way}

theorem of?_isSome_iff : (of? rules fuzzy word term).isSome = true ↔
    Finds rules fuzzy word term := by
  unfold of? Finds
  by_cases hexact : term = word
  · simp [hexact]
  by_cases hbegin : rules.prefixMinLength ≤ word.length ∧ word.toList <+: term.toList
  · simp [hexact, hbegin]
  · simp only [hexact, hbegin, if_false, false_or]
    split <;> simp_all

/-- Only the first rule that holds applies. -/
theorem of?_of_applies (h : way.applies rules fuzzy word term = true) :
    of? rules fuzzy word term = some way := by
  cases way with
  | exact =>
    rw [of?, if_pos (by simpa [applies] using h)]
  | beginning =>
    simp only [applies, Bool.and_eq_true, decide_eq_true_eq, bne_iff_ne,
      TextIndex.startsWith_iff] at h
    rw [of?, if_neg h.2.2, if_pos ⟨h.1, h.2.1⟩]
  | near =>
    simp only [applies, Bool.and_eq_true, Bool.not_eq_true', Bool.or_eq_false_iff,
      beq_eq_false_iff_ne, isSome_boundedDistance?_iff] at h
    obtain ⟨hfuzzy, -, ⟨hexact, hbegin⟩, hedits⟩ := h
    have hnot : ¬(rules.prefixMinLength ≤ word.length ∧ word.toList <+: term.toList) := by
      rintro ⟨hlong, hprefix⟩
      rw [decide_eq_true hlong, Bool.true_and, TextIndex.startsWith_iff.mpr hprefix] at hbegin
      exact absurd hbegin (by simp)
    rw [of?, if_neg hexact, if_neg hnot, if_pos ⟨hfuzzy, hedits⟩]

theorem applies_iff : way.applies rules fuzzy word term = true ↔
    of? rules fuzzy word term = some way := by
  refine ⟨of?_of_applies, fun h => ?_⟩
  have hfinds := of?_isSome_iff.mp (Option.isSome_iff_exists.mpr ⟨way, h⟩)
  obtain ⟨way', -, happlies⟩ := exists_way_iff.mpr hfinds
  obtain rfl := Option.some.inj ((of?_of_applies happlies).symm.trans h)
  exact happlies

/-- The place of a way in the order of adding. -/
def place : Way → Nat
  | exact => 0
  | beginning => 1
  | near => 2

end Way

namespace TextIndex

/-! ## Terms that are visited -/

/-- A term that a word finds, with the occurrences under it. -/
structure Visit where
  way : Way
  term : String
  list : List Posting

namespace Visit

/-- The order of adding. -/
def Before (v w : Visit) : Prop :=
  v.way.place < w.way.place ∨ v.way = w.way ∧ v.term < w.term

/-- What the occurrences add to the scores of their records. -/
def worths (rules : IndexRules) (v : Visit) : List (RecordId × Binary64) :=
  v.list.map (worth rules v.way.weight)

end Visit

/-- The visits of one way after the other. -/
def visits (ix : TextIndex) (word : String) (fuzzy : Bool) : List Visit :=
  Way.all.flatMap fun way =>
    (ix.postings.entries.filter fun e => way.applies ix.rules fuzzy word e.1).map fun e =>
      ⟨way, e.1, e.2⟩

section Scan

variable {ix : TextIndex} {word : String} {fuzzy : Bool}

theorem mem_visits {v : Visit} : v ∈ ix.visits word fuzzy ↔
    ix.postings.get? v.term = some v.list ∧
      Way.of? ix.rules fuzzy word v.term = some v.way := by
  simp only [visits, List.mem_flatMap, List.mem_map, List.mem_filter, Way.applies_iff,
    Dict.get?_eq_some_iff]
  constructor
  · rintro ⟨way, -, e, ⟨he, hway⟩, rfl⟩
    exact ⟨he, hway⟩
  · rintro ⟨he, hway⟩
    refine ⟨v.way, ?_, (v.term, v.list), ⟨he, hway⟩, rfl⟩
    cases v.way <;> simp [Way.all]

theorem pairwise_visits : (ix.visits word fuzzy).Pairwise Visit.Before := by
  rw [visits, List.pairwise_flatMap]
  constructor
  · intro way _
    refine (List.Pairwise.filter _ ix.postings.ascending).map _ fun a b hab => ?_
    exact Or.inr ⟨rfl, hab⟩
  · have hplaces : Way.all.Pairwise fun way way' => way.place < way'.place := by
      simp [Way.all, Way.place]
    refine hplaces.imp fun {way way'} hlt v hv w hw => ?_
    obtain ⟨e, -, rfl⟩ := List.mem_map.mp hv
    obtain ⟨e', -, rfl⟩ := List.mem_map.mp hw
    exact Or.inl hlt

/-- A term has one way, so it is not visited again. -/
theorem nodup_visits : ((ix.visits word fuzzy).map (·.term)).Nodup := by
  rw [List.Nodup, List.pairwise_map]
  refine pairwise_visits.imp_of_mem fun {v w} hv hw hbefore => ?_
  intro hterm
  have hway : v.way = w.way := by
    have hv := (mem_visits.mp hv).2
    rw [hterm, (mem_visits.mp hw).2] at hv
    exact (Option.some.inj hv).symm
  rcases hbefore with hlt | ⟨-, hlt⟩
  · rw [hway] at hlt
    exact absurd hlt (lt_irrefl _)
  · rw [hterm] at hlt
    exact absurd hlt (String.lt_irrefl _)

theorem flatMap_worths_visits :
    (ix.visits word fuzzy).flatMap (Visit.worths ix.rules) =
      worths ix.rules fuzzy word ix.postings.entries := by
  rw [visits, List.flatMap_assoc, TextIndex.worths]
  refine List.flatMap_congr fun way _ => ?_
  rw [List.flatMap_map]
  rfl

end Scan

/-- The scores of a word are those of one scan over the terms of the index.  The scan visits the
terms that the word finds, each once: the word itself, then the terms it begins, then those near it,
in ascending order in each case.  It adds boost times weight times count for each occurrence, and
the weight is 1, 0.5 or 0.3. -/
theorem wordScores_eq_scan (ix : TextIndex) (word : String) (fuzzy : Bool) :
    let weight : Way → Binary64
      | .exact => .ofNat 1
      | .beginning => .ofDecimal false 5 (-1)
      | .near => .ofDecimal false 3 (-1)
    ∃ scan : List Visit,
      (∀ v, v ∈ scan ↔ ix.postings.get? v.term = some v.list ∧
        Way.of? ix.rules fuzzy word v.term = some v.way) ∧
      scan.Pairwise Visit.Before ∧
      (scan.map (·.term)).Nodup ∧
      (∀ term ∈ ix.postings.keys, term ∈ scan.map (·.term) ↔ Finds ix.rules fuzzy word term) ∧
      ix.wordScores word fuzzy = (scan.flatMap fun v => v.list.map fun p =>
        (p.id, ((ix.rules.boost p.field).mul (weight v.way)).mul (.ofNat p.count))).foldl addWorth
          Dict.empty := by
  intro weight
  refine ⟨ix.visits word fuzzy, fun v => mem_visits, pairwise_visits, nodup_visits,
    fun term hterm => ?_, ?_⟩
  · rw [List.mem_map, ← Way.of?_isSome_iff, Option.isSome_iff_exists]
    constructor
    · rintro ⟨v, hv, rfl⟩
      exact ⟨v.way, (mem_visits.mp hv).2⟩
    · rintro ⟨way, hway⟩
      obtain ⟨list, hlist⟩ := Dict.mem_keys_iff.mp hterm
      exact ⟨⟨way, term, list⟩, mem_visits.mpr ⟨hlist, hway⟩, rfl⟩
  · have hweight : weight = Way.weight := by
      funext way
      cases way <;> rfl
    rw [wordScores_eq, ← flatMap_worths_visits, hweight]
    rfl

end TextIndex
end Index
end LogLens
