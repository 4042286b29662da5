/-
Searches in which case matters.

What passes a filter when case matters passes it when case does not, as far as the filter is not
turned around and the text that it looks for has a lower case of its own (`passes_of_sensitive`).
Words that have to stand in a record verbatim only narrow a search further.  So a search in which
case matters finds no record that the same search without it would miss (`caseSensitive_narrows`).

The lower case of a sigma depends on its neighbours.  A filter that looks for a part of a text can
end in a sigma which is final in the filter and inside a word in the text, and then the part is
found verbatim and not found in lower case (`caseSensitive_widens`).
-/
import LogLens.Proofs.Index.Scan
import LogLens.Proofs.Text.Lowercase

namespace LogLens

open Index

namespace Query

/-! ## Filters that case can only narrow -/

/-- Whether the lower case of the text that an operator looks for is the same wherever the operator
may find it. -/
def Operator.settled (op : Operator) (part : List Char) : Bool :=
  match op with
  | .contains => Lowercase.settled true true part
  | .startsWith => Lowercase.settled false true part
  | .endsWith => Lowercase.settled true false part
  | _ => true

/-- Whether the text that the filter looks for has the same lower case wherever it occurs. -/
def Filter.settled (f : Filter) : Bool :=
  match f.operand with
  | .scalar v => f.operator.settled v.display.toList
  | _ => true

/-- Nothing but a capital sigma can make a filter depend on its surroundings. -/
theorem Filter.settled_of_notMem {f : Filter} (h : 'Σ' ∉ f.operand.display.toList) :
    f.settled = true := by
  unfold Filter.settled
  cases hoperand : f.operand with
  | scalar v =>
    rw [hoperand] at h
    simp only [Operator.settled]
    split <;> first | rfl | exact Lowercase.settledAfter_of_notMem _ _ [] h
  | range low high => rfl
  | absent => rfl

end Query

namespace Match

open Query

variable {now : Instant} {actual : FieldValue}

/-- Equal texts have equal lower cases; numbers and instants have no case. -/
theorem valuesEqual_of_sensitive {expected : FieldValue}
    (h : valuesEqual now true actual expected = true) :
    valuesEqual now false actual expected = true := by
  have hfolded : (folded true actual.display == folded true expected.display) = true →
      (folded false actual.display == folded false expected.display) = true := by
    intro heq
    have htext : actual.display.toList = expected.display.toList := by simpa [folded] using heq
    simp [folded, htext]
  revert h
  unfold valuesEqual
  cases actual.number? <;> cases expected.number? <;>
    cases instant? now actual <;> cases instant? now expected <;> simp only [imp_self]
  all_goals exact hfolded

theorem textMatches_of_sensitive {op : Operator} {expected : FieldValue}
    (hsettled : op.settled expected.display.toList = true)
    (h : textMatches op true actual expected = true) :
    textMatches op false actual expected = true := by
  unfold textMatches at h ⊢
  simp only [folded, if_true, Bool.false_eq_true, if_false] at h ⊢
  cases op with
  | contains =>
    rw [occursIn_iff] at h ⊢
    exact Lowercase.chars_infix hsettled h
  | startsWith =>
    rw [List.isPrefixOf_iff_prefix] at h ⊢
    exact Lowercase.chars_prefix hsettled h
  | endsWith =>
    rw [List.isSuffixOf_iff_suffix] at h ⊢
    exact Lowercase.chars_suffix hsettled h
  | _ => exact absurd h Bool.false_ne_true

theorem evaluate_of_sensitive {op : Operator} {expected : Operand}
    (hsettled : ∀ v, expected = .scalar v → op.settled v.display.toList = true)
    (h : evaluate now true actual op expected = true) :
    evaluate now false actual op expected = true := by
  unfold evaluate at h ⊢
  split <;> simp only at h ⊢
  · exact valuesEqual_of_sensitive h
  · exact textMatches_of_sensitive (hsettled _ rfl) h
  · exact textMatches_of_sensitive (hsettled _ rfl) h
  · exact textMatches_of_sensitive (hsettled _ rfl) h
  all_goals exact h

/-- A level is compared as a level or as a text, and only the text has a case. -/
theorem passes_of_sensitive {e : Entry} {f : Filter} (hplain : f.negate = false)
    (hsettled : f.settled = true) (h : passes now true e f = true) :
    passes now false e f = true := by
  have hscalar : ∀ v, f.operand = .scalar v → f.operator.settled v.display.toList = true := by
    intro v hv
    simpa [Filter.settled, hv] using hsettled
  unfold passes at h ⊢
  cases hfield : e.field? f.field with
  | none => simpa [hfield] using h
  | some actual =>
    simp only [hfield, hplain, Bool.bne_false] at h ⊢
    split
    · rename_i hlevel
      rw [if_pos hlevel] at h
      cases hanswer : evaluateLevel? e.level f.operator f.operand with
      | some answer => simpa [hanswer] using h
      | none =>
        rw [hanswer, Option.getD_none] at h
        rw [Option.getD_none]
        exact evaluate_of_sensitive hscalar h
    · rename_i hother
      rw [if_neg hother] at h
      exact evaluate_of_sensitive hscalar h

end Match

/-! ## Whole searches -/

namespace LogIndex

theorem matches_of_sensitive {rules : IndexRules} {q : SearchQuery} {now : Instant} {r : Record}
    (hplain : ∀ f ∈ q.filters, f.negate = false) (hsettled : ∀ f ∈ q.filters, f.settled = true)
    (h : Matches rules { q with caseSensitive := true, limit := none } now r) :
    Matches rules { q with caseSensitive := false, limit := none } now r where
  inTime := h.inTime
  filters := fun f hf => Match.passes_of_sensitive (hplain f hf) (hsettled f hf) (h.filters f hf)
  words := h.words
  verbatim := fun hcase => absurd hcase (by simp)

/-- A search in which case matters finds a part of what the same search finds when it does not. -/
theorem caseSensitive_narrows (rules : IndexRules) (history : List Change) {q : SearchQuery}
    (hplain : ∀ f ∈ q.filters, f.negate = false) (hsettled : ∀ f ∈ q.filters, f.settled = true)
    (now : Instant) :
    ∃ strict loose : List Record,
      SearchesFor rules history { q with caseSensitive := true, limit := none } now strict ∧
      SearchesFor rules history { q with caseSensitive := false, limit := none } now loose ∧
      ∀ r ∈ strict, r ∈ loose := by
  obtain ⟨strict, hstrict⟩ := exists_searchesFor rules history
    (q := { q with caseSensitive := true, limit := none }) rfl now
  obtain ⟨loose, hloose⟩ := exists_searchesFor rules history
    (q := { q with caseSensitive := false, limit := none }) rfl now
  refine ⟨strict, loose, hstrict, hloose, fun r hr => ?_⟩
  obtain ⟨hlive, hmatches⟩ := (hstrict.mem_iff r).mp hr
  exact (hloose.mem_iff r).mpr ⟨hlive, matches_of_sensitive hplain hsettled hmatches⟩

/-- The sigmas of the filters stand between letters, or at the start of what is looked for. -/
theorem caseSensitive_narrows_settled :
    let r : Record :=
      { timestamp := Instant.latest, level := .warn, message := "ΣΦΑΛΜΑ ΜΕΣΑ", file := "a.log",
        raw := "ΣΦΑΛΜΑ ΜΕΣΑ", id := 1 }
    let filters : List Query.Filter := [⟨"message", .startsWith, .scalar (.text "Σ"), false⟩,
      ⟨"message", .contains, .scalar (.text "ΕΣΑ"), false⟩]
    (∀ f ∈ filters, f.negate = false) ∧ (∀ f ∈ filters, f.settled = true) ∧
      ∃ loose,
        (after {} [.add [r]]).search? { text := "ΜΕΣΑ", filters, caseSensitive := true }
          Instant.earliest = .ok { records := [r], total := 1 } ∧
        (after {} [.add [r]]).search? { text := "ΜΕΣΑ", filters } Instant.earliest = .ok loose ∧
        r ∈ loose.records := by
  intro r filters
  have hplain : ∀ f ∈ filters, f.negate = false := by decide
  have hsettled : ∀ f ∈ filters, f.settled = true := by decide +kernel
  obtain ⟨strict, loose, hstrict, hloose, hmem⟩ :=
    caseSensitive_narrows {} [.add [r]] (q := { text := "ΜΕΣΑ", filters }) hplain hsettled
      Instant.earliest
  have hfound : (after {} [.add [r]]).search?
      { text := "ΜΕΣΑ", filters, caseSensitive := true } Instant.earliest =
        .ok { records := [r], total := 1 } := by
    decide +kernel
  have hfew : (live [.add [r]]).length ≤ 20 := by decide
  obtain ⟨result, hresult, hperm, -⟩ :=
    hstrict.exists_answer (Or.inl (hstrict.length_le.trans hfew))
  obtain ⟨result', hresult', hperm', -⟩ :=
    hloose.exists_answer (Or.inl (hloose.length_le.trans hfew))
  refine ⟨hplain, hsettled, result', hfound, hresult', hperm'.mem_iff.mpr (hmem r ?_)⟩
  obtain rfl := Except.ok.inj (hfound.symm.trans hresult)
  exact hperm.mem_iff.mp (List.mem_singleton_self r)

/-- The sigma ends what is looked for and stands inside the word of the record. -/
theorem caseSensitive_widens :
    let r : Record :=
      { timestamp := Instant.latest, level := .info, message := "ΑΣΑ", file := "a.log",
        raw := "ΑΣΑ", id := 1 }
    let q : SearchQuery := { filters := [⟨"message", .contains, .scalar (.text "ΑΣ"), false⟩] }
    (after {} [.add [r]]).search? { q with caseSensitive := true } Instant.earliest =
        .ok { records := [r], total := 1 } ∧
      (after {} [.add [r]]).search? q Instant.earliest = .ok {} := by
  decide +kernel

end LogIndex
end LogLens
