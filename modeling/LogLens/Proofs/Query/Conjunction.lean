/-
Queries that are joined.

A blank, `AND` or `OR` between a complete query and another one makes a query that asks for both
(`conjunction`): it has the filters of both and the words of both, and it finds the records that
both find.  With a blank in between one more thing can go wrong.  Whether a word is a value is seen
from the character before it, so a stray bracket hides the white space behind an operator, and the
first word of the second query is read as a value (`parse_stray`).
-/
import LogLens.Proofs.Index.Scan
import LogLens.Proofs.Query.Segments

namespace LogLens

open Index

/-! ## Words of joined texts -/

section Runs

variable {p : Char → Bool}

theorem foldr_step_runs (cs : List Char) (runs : List (List Char)) :
    cs.foldr (runsOf.step p) ([], runs) =
      ((cs.foldr (runsOf.step p) ([], [])).1, (cs.foldr (runsOf.step p) ([], [])).2 ++ runs) := by
  induction cs with
  | nil => rfl
  | cons c cs ih =>
    rw [List.foldr_cons, List.foldr_cons, ih, runsOf.step, runsOf.step]
    split
    · rfl
    · rw [runsOf.close, runsOf.close]
      split <;> rfl

theorem close_append (open_ : List Char) (runs more : List (List Char)) :
    runsOf.close (open_, runs ++ more) = runsOf.close (open_, runs) ++ more := by
  rw [runsOf.close, runsOf.close]
  split <;> rfl

/-- A character that belongs to no run divides the runs. -/
theorem runsOf_append {gap : Char} (hgap : p gap = false) (a b : List Char) :
    runsOf p (a ++ gap :: b) = runsOf p a ++ runsOf p b := by
  have hright : (gap :: b).foldr (runsOf.step p) ([], []) = ([], runsOf p b) := by
    rw [List.foldr_cons, runsOf.step, hgap]
    rfl
  rw [runsOf, List.foldr_append, hright, foldr_step_runs, close_append]
  rfl

end Runs

theorem splitTerms_append (a b : String) :
    splitTerms (a ++ " " ++ b) = splitTerms a ++ splitTerms b := by
  have hgap : isTermChar ' ' = false := by decide +kernel
  have htext : (a ++ " " ++ b).toList = a.toList ++ ' ' :: b.toList := by simp
  rw [splitTerms, htext, runsOf_append hgap, List.map_append]
  rfl

theorem splitTerms_joinWith (words : List String) :
    splitTerms (joinWith " " words) = words.flatMap splitTerms := by
  induction words with
  | nil => decide
  | cons word words ih =>
    cases words with
    | nil => rw [joinWith, List.flatMap_singleton]
    | cons next words =>
      rw [joinWith, splitTerms_append, ih, ← List.flatMap_cons]
      exact List.cons_ne_nil next words

theorem termsOf_joinWith (words : List String) :
    termsOf (joinWith " " words) = words.flatMap termsOf := by
  rw [termsOf, splitTerms_joinWith, List.map_flatMap]
  rfl

namespace Query

open Token

/-! ## The search for both -/

/-- The search for all records that a query matches, with the settings of another search. -/
def Parsed.searchWith (settings : SearchQuery) (p : Parsed) : SearchQuery :=
  { settings with text := p.text, filters := p.filters, limit := none }

theorem matches_append_iff {rules : IndexRules} {settings : SearchQuery} {now : Instant}
    {r : Record} (p p' : Parsed) :
    LogIndex.Matches rules ((p.append p').searchWith settings) now r ↔
      LogIndex.Matches rules (p.searchWith settings) now r ∧
        LogIndex.Matches rules (p'.searchWith settings) now r := by
  have hterms : termsOf (p.append p').text = termsOf p.text ++ termsOf p'.text := by
    simp only [Parsed.text, termsOf_joinWith, Parsed.append, List.flatMap_append]
  have hsplit : splitTerms (p.append p').text = splitTerms p.text ++ splitTerms p'.text := by
    simp only [Parsed.text, splitTerms_joinWith, Parsed.append, List.flatMap_append]
  constructor
  · intro h
    have hwords := h.words
    have hverbatim := h.verbatim
    have hfilters := h.filters
    simp only [Parsed.searchWith, hterms, hsplit] at hwords hverbatim
    refine ⟨⟨h.inTime, ?_, ?_, ?_⟩, ⟨h.inTime, ?_, ?_, ?_⟩⟩
    · exact fun f hf => hfilters f (List.mem_append_left _ hf)
    · exact fun word hword => hwords word (List.mem_append_left _ hword)
    · exact fun hcase hfuzzy word hword =>
        hverbatim hcase hfuzzy word (List.mem_append_left _ hword)
    · exact fun f hf => hfilters f (List.mem_append_right _ hf)
    · exact fun word hword => hwords word (List.mem_append_right _ hword)
    · exact fun hcase hfuzzy word hword =>
        hverbatim hcase hfuzzy word (List.mem_append_right _ hword)
  · rintro ⟨h, h'⟩
    refine ⟨h.inTime, ?_, ?_, ?_⟩
    · intro f hf
      rcases List.mem_append.mp hf with hf | hf
      · exact h.filters f hf
      · exact h'.filters f hf
    · intro word hword
      rcases List.mem_append.mp (hterms ▸ hword) with hword | hword
      · exact h.words word hword
      · exact h'.words word hword
    · intro hcase hfuzzy word hword
      rcases List.mem_append.mp (hsplit ▸ hword) with hword | hword
      · exact h.verbatim hcase hfuzzy word hword
      · exact h'.verbatim hcase hfuzzy word hword

/-- The joined query is for the records that both queries are for. -/
theorem exists_searchesFor_append (rules : IndexRules) (history : List LogIndex.Change)
    (settings : SearchQuery) (now : Instant) (p p' : Parsed) :
    ∃ both first second : List Record,
      LogIndex.SearchesFor rules history ((p.append p').searchWith settings) now both ∧
      LogIndex.SearchesFor rules history (p.searchWith settings) now first ∧
      LogIndex.SearchesFor rules history (p'.searchWith settings) now second ∧
      ∀ r, r ∈ both ↔ r ∈ first ∧ r ∈ second := by
  obtain ⟨both, hboth⟩ := LogIndex.exists_searchesFor rules history
    (q := (p.append p').searchWith settings) rfl now
  obtain ⟨first, hfirst⟩ := LogIndex.exists_searchesFor rules history
    (q := p.searchWith settings) rfl now
  obtain ⟨second, hsecond⟩ := LogIndex.exists_searchesFor rules history
    (q := p'.searchWith settings) rfl now
  refine ⟨both, first, second, hboth, hfirst, hsecond, fun r => ?_⟩
  rw [hboth.mem_iff, hfirst.mem_iff, hsecond.mem_iff, matches_append_iff]
  tauto

/-! ## Joined texts -/

/-- What may stand between two queries. -/
inductive Separator where
  | blank
  | and
  | or
  deriving DecidableEq

def Separator.text : Separator → String
  | blank => " "
  | and => " AND "
  | or => " OR "

/-- A keyword between two queries changes nothing. -/
theorem parse_around_keyword {q₁ q₂ keyword : String} (h₁ : Complete q₁)
    (hclosed : terminated keyword.toList = true)
    (htokens : tokenize keyword = [.and] ∨ tokenize keyword = [.or])
    (hletter : ∃ c rest, keyword.toList = c :: rest ∧ isSpecial c = false)
    (hcolon : (trimStart q₂.toList).head? ≠ some ':') (reference : Instant) :
    parse (q₁ ++ " " ++ (keyword ++ " " ++ q₂)) reference = do
      let p₁ ← parse q₁ reference
      return p₁.append (← parse q₂ reference) := by
  have hkeyword : Complete keyword := by
    refine ⟨hclosed, ?_, ?_⟩ <;> rcases htokens with h | h <;> rw [h] <;> rfl
  have hoperator : endsInOperator false (tokenize keyword) = false := by
    rcases htokens with h | h <;> rw [h] <;> rfl
  have hempty : parse keyword reference = .ok ⟨[], []⟩ := by
    rcases htokens with h | h <;> rw [parse, h] <;> rfl
  obtain ⟨c, rest, htext, hc⟩ := hletter
  obtain ⟨hblank, -, hcolon', -, -, -, hstray, -⟩ := isSpecial_eq_false_iff.mp hc
  have hhead : (trimStart (keyword ++ " " ++ q₂).toList).head? = some c := by
    simp [htext, trimStart, hblank]
  have hne : ∀ d, c ≠ d → (trimStart (keyword ++ " " ++ q₂).toList).head? ≠ some d := by
    intro d hd
    rw [hhead]
    simpa using hd
  have hsecond : parse (keyword ++ " " ++ q₂) reference = parse q₂ reference := by
    rw [parse_append_blank hkeyword hcolon (by simp [hoperator]), hempty]
    cases parse q₂ reference <;> rfl
  rw [parse_append_blank h₁ (hne _ hcolon') (fun _ => hne _ hstray), hsecond]

theorem parse_separated {q₁ q₂ : String} (separator : Separator) (h₁ : Complete q₁)
    (hcolon : (trimStart q₂.toList).head? ≠ some ':')
    (hstray : separator = .blank → endsInOperator false (tokenize q₁) = true →
      (trimStart q₂.toList).head? ≠ some ']') (reference : Instant) :
    parse (q₁ ++ separator.text ++ q₂) reference = do
      let p₁ ← parse q₁ reference
      return p₁.append (← parse q₂ reference) := by
  cases separator with
  | blank => exact parse_append_blank h₁ hcolon (hstray rfl) reference
  | and =>
    have htext : q₁ ++ Separator.and.text ++ q₂ = q₁ ++ " " ++ ("AND" ++ " " ++ q₂) := by
      simp [Separator.text, ← String.toList_inj]
    rw [htext]
    exact parse_around_keyword h₁ (by decide +kernel) (by decide +kernel)
      ⟨'A', _, rfl, by decide⟩ hcolon reference
  | or =>
    have htext : q₁ ++ Separator.or.text ++ q₂ = q₁ ++ " " ++ ("OR" ++ " " ++ q₂) := by
      simp [Separator.text, ← String.toList_inj]
    rw [htext]
    exact parse_around_keyword h₁ (by decide +kernel) (by decide +kernel)
      ⟨'O', _, rfl, by decide⟩ hcolon reference

/-- A complete query joined with another one says what both say, and finds what both find. -/
theorem conjunction {q₁ q₂ : String} (separator : Separator) (h₁ : Complete q₁)
    (hcolon : (trimStart q₂.toList).head? ≠ some ':')
    (hstray : separator = .blank → endsInOperator false (tokenize q₁) = true →
      (trimStart q₂.toList).head? ≠ some ']') (reference : Instant) :
    (parse (q₁ ++ separator.text ++ q₂) reference = do
      let p₁ ← parse q₁ reference
      return p₁.append (← parse q₂ reference)) ∧
    ∀ p₁ p₂, parse q₁ reference = .ok p₁ → parse q₂ reference = .ok p₂ →
      ∃ p, parse (q₁ ++ separator.text ++ q₂) reference = .ok p ∧
        p.filters = p₁.filters ++ p₂.filters ∧
        p.text = joinWith " " (p₁.words ++ p₂.words) ∧
        ∀ (rules : IndexRules) (history : List LogIndex.Change) (settings : SearchQuery)
          (now : Instant), ∃ both first second : List Record,
          LogIndex.SearchesFor rules history (p.searchWith settings) now both ∧
          LogIndex.SearchesFor rules history (p₁.searchWith settings) now first ∧
          LogIndex.SearchesFor rules history (p₂.searchWith settings) now second ∧
          ∀ r, r ∈ both ↔ r ∈ first ∧ r ∈ second := by
  have hparse := parse_separated separator h₁ hcolon hstray reference
  refine ⟨hparse, fun p₁ p₂ hp₁ hp₂ => ⟨p₁.append p₂, ?_, rfl, rfl, ?_⟩⟩
  · rw [hparse, hp₁, hp₂]
    rfl
  · intro rules history settings now
    exact exists_searchesFor_append rules history settings now p₁ p₂

/-- What either query leaves open stays on its side. -/
theorem conjunction_of_fragments :
    Complete "NOT (host:web* \"disk full\" a: OR NOT >2" ∧
      ∃ p, parse ("NOT (host:web* \"disk full\" a: OR NOT >2" ++ " AND " ++
          "at:[1 TO 2] NOT : [x") Instant.earliest = .ok p ∧
        p.filters = [⟨"host", .startsWith, .scalar (.text "web"), true⟩,
          .between "at" (.number (Binary64.ofNat 1)) (.number (Binary64.ofNat 2))] ∧
        p.text = "disk full a 2 [x" := by
  have h₁ : Complete "NOT (host:web* \"disk full\" a: OR NOT >2" :=
    ⟨by decide +kernel, by decide +kernel, by decide +kernel⟩
  have hcolon : (trimStart "at:[1 TO 2] NOT : [x".toList).head? ≠ some ':' := by decide
  obtain ⟨p, hp, hfilters, htext, -⟩ :=
    (conjunction .and h₁ hcolon (by decide) Instant.earliest).2
      ⟨[⟨"host", .startsWith, .scalar (.text "web"), true⟩], ["disk full", "a", "2"]⟩
      ⟨[.between "at" (.number (Binary64.ofNat 1)) (.number (Binary64.ofNat 2))], ["[x"]⟩
      (by decide +kernel) (by decide +kernel)
  exact ⟨h₁, p, hp, hfilters, htext⟩

/-- A stray bracket hides the white space behind an operator: the word behind it is read as a value
and not as a field. -/
theorem parse_stray :
    Complete ">" ∧ (trimStart "]a:b".toList).head? ≠ some ':' ∧
      parse ">" Instant.earliest = .ok ⟨[], []⟩ ∧
      parse "]a:b" Instant.earliest =
        .ok ⟨[⟨"a", .equals, .scalar (.text "b"), false⟩], []⟩ ∧
      parse (">" ++ Separator.blank.text ++ "]a:b") Instant.earliest = .ok ⟨[], ["a:b"]⟩ := by
  refine ⟨⟨?_, ?_, ?_⟩, ?_, ?_, ?_, ?_⟩ <;> decide +kernel

end Query
end LogLens
