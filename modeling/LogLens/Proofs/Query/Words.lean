/-
Words of a query that stand for themselves.

A plain word is one token whatever its neighbours are: free text, or the name of a field when a
colon comes behind it.  A field, operators and one value make one condition
(`segments_condition`), and the tokens of a condition wait for nothing.
-/
import LogLens.Proofs.Query.Segments

namespace LogLens
namespace Query

open Token

/-! ## Plain words -/

/-- A word that is read as itself. -/
structure PlainWord (word : String) : Prop where
  nonempty : word ≠ ""
  plain : ∀ c ∈ word.toList, isSpecial c = false
  /-- The word is no keyword in any case of ASCII letters. -/
  meaning : ∀ keyword ∈ ["AND", "OR", "NOT"],
    equalsIgnoringCase word.toList keyword.toList = false

instance (word : String) : Decidable (PlainWord word) :=
  decidable_of_iff (word ≠ "" ∧ word.toList.all (!isSpecial ·) = true ∧
    ["AND", "OR", "NOT"].all (!equalsIgnoringCase word.toList ·.toList) = true) <| by
    simp only [List.all_eq_true, Bool.not_eq_true']
    exact ⟨fun h => ⟨h.1, h.2.1, h.2.2⟩, fun h => ⟨h.nonempty, h.plain, h.meaning⟩⟩

/-- A run of plain characters is one word. -/
theorem scan_run {word : List Char} (hne : word ≠ []) (hword : ∀ c ∈ word, isSpecial c = false)
    (bl : Bool) (rest : List Char) (hrest : ∀ c ∈ rest.head?, isSpecial c = true) :
    scan false bl (word ++ rest) = ofWord word rest :: scan false false rest := by
  obtain ⟨c, word, rfl⟩ := List.exists_cons_of_ne_nil hne
  have htail : ∀ d ∈ word, (!isSpecial d) = true := fun d hd => by
    simp [hword d (List.mem_cons_of_mem c hd)]
  have hstop : rest.takeWhile (!isSpecial ·) = [] ∧ rest.dropWhile (!isSpecial ·) = rest := by
    cases rest with
    | nil => simp
    | cons d rest => simp [hrest d rfl]
  rw [List.cons_append, scan_word false bl _ (hword c List.mem_cons_self) rfl,
    List.takeWhile_append_of_pos htail, List.dropWhile_append_of_pos htail, hstop.1, hstop.2,
    List.append_nil]

namespace PlainWord

variable {word : String}

theorem toList_ne_nil (h : PlainWord word) : word.toList ≠ [] := by
  simpa using h.nonempty

theorem ofWord_eq (h : PlainWord word) (rest : List Char) :
    ofWord word.toList rest =
      if (trimStart rest).head? == some ':' then .field word else .text word := by
  rw [ofWord, h.meaning "AND" (by simp), h.meaning "OR" (by simp), h.meaning "NOT" (by simp)]
  simp

theorem tokenize_eq (h : PlainWord word) : tokenize word = [.text word] := by
  have hscan := scan_run h.toList_ne_nil h.plain false [] (by simp)
  rw [List.append_nil, h.ofWord_eq, scan_nil] at hscan
  rw [tokenize_eq_scan]
  exact hscan

/-- Before a colon the word names a field. -/
theorem scan_field (h : PlainWord word) (bl : Bool) (rest : List Char) :
    scan false bl (word.toList ++ ':' :: rest) =
      .field word :: .operator .colon :: scan true false rest := by
  have hcolon : ∀ c ∈ (':' :: rest).head?, isSpecial c = true := by
    intro c hc
    cases hc
    decide
  rw [scan_run h.toList_ne_nil h.plain bl _ hcolon, h.ofWord_eq, scan_colon]
  rfl

end PlainWord

theorem terminated_append_plain {plain : List Char} (h : ∀ c ∈ plain, c ≠ '"' ∧ c ≠ '[')
    (rest : List Char) : terminated (plain ++ rest) = terminated rest := by
  induction plain with
  | nil => rfl
  | cons c plain ih =>
    obtain ⟨hquote, hbracket⟩ := h c List.mem_cons_self
    rw [List.cons_append, terminated_cons hquote hbracket,
      ih fun d hd => h d (List.mem_cons_of_mem c hd)]

/-! ## A field with its value -/

section Conditions

variable {token : Token} {literal : Literal} (operators : List Comparison)

theorem isOperator_of_literal (h : Literal.ofToken? token = some literal) :
    token.isOperator = false ∧ token.isField = false := by
  cases token <;> first | exact ⟨rfl, rfl⟩ | cases h

theorem operatorRun_map (h : token.isOperator = false) (rest : List Token) :
    operatorRun (operators.map .operator ++ token :: rest) = operators := by
  induction operators with
  | nil => cases token <;> first | rfl | cases h
  | cons op operators ih => exact congrArg (op :: ·) ih

theorem segmentsFrom_length (tokens : List Token) : segmentsFrom tokens.length tokens = [] := by
  induction tokens with
  | nil => rfl
  | cons t tokens ih => exact ih

/-- The tokens of a field with its value make one condition. -/
theorem segments_condition (name : String) (op : Comparison)
    (h : Literal.ofToken? token = some literal) :
    segments (.field name :: .operator op :: (operators.map .operator ++ [token])) =
      [.condition name (op :: operators) literal] := by
  have hrun := operatorRun_map (op :: operators) (isOperator_of_literal h).1 []
  have hsegment : fieldSegment name ((op :: operators).map .operator ++ [token]) =
      (.condition name (op :: operators) literal,
        ((op :: operators).map Token.operator ++ [token]).length) := by
    rw [fieldSegment, hrun]
    simp [h]
  show (fieldSegment name ((op :: operators).map .operator ++ [token])).1 ::
    segmentsFrom (fieldSegment name ((op :: operators).map .operator ++ [token])).2
      ((op :: operators).map .operator ++ [token]) = _
  rw [hsegment, segmentsFrom_length]

theorem endsInOperator_concat (op : Bool) (tokens : List Token) :
    endsInOperator op (tokens ++ [token]) = token.isOperator := by
  induction tokens generalizing op with
  | nil => rfl
  | cons t tokens ih => exact ih t.isOperator

theorem awaitsValue_concat (h : Literal.ofToken? token = some literal) (tokens : List Token) :
    awaitsValue (tokens ++ [token]) = false := by
  obtain ⟨hoperator, hfield⟩ := isOperator_of_literal h
  induction tokens with
  | nil => simp [awaitsValue, hfield]
  | cons t tokens ih =>
    rw [List.cons_append, awaitsValue_cons_eq_false]
    exact ⟨fun _ => ⟨token, by simp, hoperator⟩, ih⟩

end Conditions

end Query
end LogLens
