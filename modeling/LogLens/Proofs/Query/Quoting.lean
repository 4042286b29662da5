/-
Texts in quotes.

Whatever stands in quotes is read as it is: white space, brackets, stars and keywords mean nothing
there, and a double quote behind a backslash does not end it.  Every item that is written in quotes
leaves the scanner in the state it found it in (`scan_text`), so a list is read item by item
(`parse_quoted`).  What can fail is only to place a value that is a time without a year
(`parse_quoted_lastDay`).
-/
import LogLens.Proofs.Query.Facet

namespace LogLens
namespace Query

open Token

/-! ## Items in quotes -/

/-- A text in quotes: a phrase of its own, or the value that is asked for in a field. -/
inductive Quoted where
  | phrase (s : String)
  | value (name s : String)

namespace Quoted

def text : Quoted → String
  | phrase s => "\"" ++ String.ofList (escaped s.toList) ++ "\""
  | value name s => facet name s

def phrase? : Quoted → Option String
  | phrase s => some s
  | value _ _ => none

def value? : Quoted → Option (String × String)
  | phrase _ => none
  | value name s => some (name, s)

/-- The query language can write the item.  A backslash at the end of a text would be read together
with the closing quote. -/
inductive Writable : Quoted → Prop
  | phrase {s : String} (hs : s.toList.getLast? ≠ some '\\') : Writable (.phrase s)
  | value {name s : String} (hname : PlainWord name) (hs : s.toList.getLast? ≠ some '\\') :
      Writable (.value name s)

def tokens : Quoted → List Token
  | phrase s => [.value s]
  | value name s => [.field name, .operator .colon, .value s]

def asSegment : Quoted → Segment
  | phrase s => .free (.phrase s)
  | value name s => .condition name [.colon] (.phrase s)

/-! ## Tokens and segments -/

theorem scan_quoted {s : String} (hs : s.toList.getLast? ≠ some '\\') (op bl : Bool)
    (rest : List Char) :
    scan op bl ('"' :: (escaped s.toList ++ '"' :: rest)) = .value s :: scan false false rest := by
  rw [scan_quote, quoted_escaped hs, String.ofList_toList]

/-- An item is read off the front of a text, whatever follows. -/
theorem Writable.scan_text {item : Quoted} (h : item.Writable) (bl : Bool) (rest : List Char) :
    scan false bl (item.text.toList ++ rest) = item.tokens ++ scan false false rest := by
  cases h with
  | @phrase s hs =>
    have htext : (Quoted.phrase s).text.toList ++ rest =
        '"' :: (escaped s.toList ++ '"' :: rest) := by
      simp [text]
    rw [htext, scan_quoted hs]
    rfl
  | @value name s hname hs =>
    have htext : (Quoted.value name s).text.toList ++ rest =
        name.toList ++ ':' :: '"' :: (escaped s.toList ++ '"' :: rest) := by
      simp [text, facet]
    rw [htext, hname.scan_field, scan_quoted hs]
    rfl

theorem scan_texts {items : List Quoted} (h : ∀ item ∈ items, item.Writable) (bl : Bool) :
    scan false bl (joinWith " " (items.map text)).toList = items.flatMap tokens := by
  induction items generalizing bl with
  | nil => exact scan_nil false bl
  | cons item items ih =>
    have hitem := h item List.mem_cons_self
    have hrest := ih fun item hmem => h item (List.mem_cons_of_mem _ hmem)
    cases items with
    | nil =>
      have hscan := hitem.scan_text bl []
      rw [List.append_nil, scan_nil] at hscan
      exact hscan
    | cons next items =>
      have htext : (joinWith " " ((item :: next :: items).map text)).toList =
          item.text.toList ++ ' ' :: (joinWith " " ((next :: items).map text)).toList := by
        simp [joinWith]
      rw [htext, hitem.scan_text, scan_blank _ _ _ (by decide), hrest true]
      rfl

/-- The tokens of an item make one segment and wait for nothing. -/
theorem segments_tokens (item : Quoted) :
    segments item.tokens = [item.asSegment] ∧ awaitsValue item.tokens = false := by
  cases item with
  | phrase s => exact ⟨rfl, rfl⟩
  | value name s =>
    have hliteral : Literal.ofToken? (.value s) = some (.phrase s) := rfl
    exact ⟨segments_condition [] name .colon hliteral,
      awaitsValue_concat hliteral [.field name, .operator .colon]⟩

theorem segments_flatMap_tokens (items : List Quoted) :
    segments (items.flatMap tokens) = items.map asSegment := by
  induction items with
  | nil => rfl
  | cons item items ih =>
    obtain ⟨hsegments, hawaits⟩ := segments_tokens item
    rw [List.flatMap_cons, segments_append hawaits, hsegments, ih]
    rfl

end Quoted

open Quoted

/-! ## Reading -/

/-- The filter asks for the value that the text is read as. -/
def AsksFor (reference : Instant) (asked : String × String) (f : Filter) : Prop :=
  ∃ v, coerce asked.2 reference = .ok v ∧ f = ⟨asked.1, .equals, .scalar v, false⟩

/-- Items are read one after the other, up to a value that cannot be placed in time. -/
theorem ofSegments_quoted (reference : Instant) (items : List Quoted) :
    (∃ p, ofSegments reference false (items.map asSegment) = .ok p ∧
      List.Forall₂ (AsksFor reference) (items.filterMap value?) p.filters ∧
      p.words = items.filterMap phrase?) ∨
    ofSegments reference false (items.map asSegment) = .error ⟨⟩ ∧
      ∃ field s, .value field s ∈ items ∧ coerce s reference = .error ⟨⟩ := by
  induction items with
  | nil => exact Or.inl ⟨⟨[], []⟩, rfl, .nil, rfl⟩
  | cons item items ih =>
    cases item with
    | phrase s =>
      rw [List.map_cons, asSegment, ofSegments]
      rcases ih with ⟨p, hp, hfilters, hwords⟩ | ⟨herror, field, s', hmem, hs'⟩
      · refine Or.inl ⟨⟨p.filters, s :: p.words⟩, by rw [hp]; rfl, hfilters, ?_⟩
        exact congrArg (s :: ·) hwords
      · exact Or.inr ⟨by rw [herror]; rfl, field, s', List.mem_cons_of_mem _ hmem, hs'⟩
    | value name s =>
      rw [List.map_cons, asSegment, ofSegments, condition, comparison]
      cases hs : coerce s reference with
      | error e => exact Or.inr ⟨rfl, name, s, List.mem_cons_self, hs⟩
      | ok v =>
        rcases ih with ⟨p, hp, hfilters, hwords⟩ | ⟨herror, field, s', hmem, hs'⟩
        · refine Or.inl ⟨⟨⟨name, .equals, .scalar v, false⟩ :: p.filters, p.words⟩, ?_, ?_, hwords⟩
          · rw [hp]
            rfl
          · exact .cons ⟨v, hs, rfl⟩ hfilters
        · exact Or.inr ⟨by rw [herror]; rfl, field, s', List.mem_cons_of_mem _ hmem, hs'⟩

/-- Items in quotes, joined by blanks, are read back: for each value an equality filter on its field
in order, and the phrases as free text.  Nothing is read only when a value is a time without a year
that would have to be placed from the last representable day. -/
theorem parse_quoted (reference : Instant) {items : List Quoted}
    (h : ∀ item ∈ items, item.Writable) :
    (∃ p, parse (joinWith " " (items.map Quoted.text)) reference = .ok p ∧
      List.Forall₂ (AsksFor reference) (items.filterMap value?) p.filters ∧
      p.text = joinWith " " (items.filterMap phrase?)) ∨
    parse (joinWith " " (items.map Quoted.text)) reference = .error ⟨⟩ ∧
      ¬reference.HasNextDay ∧
      ∃ field s, .value field s ∈ items ∧ coerce s reference = .error ⟨⟩ := by
  have hparse : parse (joinWith " " (items.map Quoted.text)) reference =
      ofSegments reference false (items.map asSegment) := by
    rw [parse, tokenize_eq_scan, scan_texts h, segments_flatMap_tokens]
  rw [hparse]
  rcases ofSegments_quoted reference items with
    ⟨p, hp, hfilters, hwords⟩ | ⟨herror, field, s, hmem, hs⟩
  · exact Or.inl ⟨p, hp, hfilters, congrArg (joinWith " ") hwords⟩
  · refine Or.inr ⟨herror, fun hday => ?_, field, s, hmem, hs⟩
    obtain ⟨v, hv⟩ := coerce_isOk hday s
    exact absurd (hv.symm.trans hs) (by simp)

/-- Quotes behind backslashes, keywords, brackets and stars in quotes, and an empty phrase. -/
theorem parse_quoted_marks :
    (∀ item ∈ [Quoted.value "path" "C:\\\"a\" [1 TO *]", .phrase "NOT host:x", .phrase "",
      .value "n" "250"], item.Writable) ∧
    ∃ p, parse "path:\"C:\\\\\"a\\\" [1 TO *]\" \"NOT host:x\" \"\" n:\"250\"" .earliest =
        .ok p ∧
      List.Forall₂ (AsksFor Instant.earliest) [("path", "C:\\\"a\" [1 TO *]"), ("n", "250")]
        p.filters ∧
      p.text = "NOT host:x " := by
  have hwritable : ∀ item ∈ [Quoted.value "path" "C:\\\"a\" [1 TO *]", .phrase "NOT host:x",
      .phrase "", .value "n" "250"], item.Writable := by
    simp only [List.forall_mem_cons]
    exact ⟨.value (by decide +kernel) (by decide +kernel), .phrase (by decide +kernel),
      .phrase (by decide +kernel), .value (by decide +kernel) (by decide +kernel),
      List.forall_mem_nil _⟩
  have htext : joinWith " " ([Quoted.value "path" "C:\\\"a\" [1 TO *]", .phrase "NOT host:x",
      .phrase "", .value "n" "250"].map Quoted.text) =
      "path:\"C:\\\\\"a\\\" [1 TO *]\" \"NOT host:x\" \"\" n:\"250\"" := by
    decide +kernel
  have hparse := (parse_quoted Instant.earliest hwritable).resolve_right
    fun herror => herror.2.1 (by decide)
  rw [htext] at hparse
  exact ⟨hwritable, hparse⟩

/-- On the last representable day a quoted time without a year cannot be read. -/
theorem parse_quoted_lastDay :
    (∀ item ∈ [Quoted.value "at" "Oct  1 12:00:00"], item.Writable) ∧
      joinWith " " ([Quoted.value "at" "Oct  1 12:00:00"].map Quoted.text) =
        "at:\"Oct  1 12:00:00\"" ∧
      parse "at:\"Oct  1 12:00:00\"" Instant.latest = .error ⟨⟩ := by
  refine ⟨?_, by decide +kernel, by decide +kernel⟩
  rw [List.forall_mem_singleton]
  exact .value (by decide +kernel) (by decide +kernel)

end Query
end LogLens
