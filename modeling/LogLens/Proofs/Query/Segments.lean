/-
Segments of one query behind those of another.

A query is complete (`Complete`) when its quotes and brackets are closed, when it does not end while
a field waits for its value, and when no `NOT` waits for its filter.  Whatever follows a complete
query leaves its segments as they are (`segments_append`), and the reading of the segments starts
afresh (`ofSegments_append`); so the query and what follows are read one after the other
(`parse_append_blank`).
-/
import LogLens.Proofs.Query.Tokens
import LogLens.Query.Parser

namespace LogLens
namespace Query

/-! ## Tokens that wait for others -/

namespace Token

def isField : Token → Bool
  | field _ => true
  | _ => false

/-- The tokens end with a field and operators. -/
def awaitsValue : List Token → Bool
  | [] => false
  | t :: rest => isField t && rest.all isOperator || awaitsValue rest

theorem awaitsValue_cons_eq_false {t : Token} {rest : List Token} :
    awaitsValue (t :: rest) = false ↔
      (isField t = true → ∃ t' ∈ rest, isOperator t' = false) ∧ awaitsValue rest = false := by
  rw [awaitsValue, Bool.or_eq_false_iff, Bool.and_eq_false_imp, List.all_eq_false]
  simp

end Token

open Token

/-! ## Segments -/

theorem operatorRun_append {rest : List Token} (h : ∃ t ∈ rest, t.isOperator = false)
    (more : List Token) :
    operatorRun (rest ++ more) = operatorRun rest ∧ (operatorRun rest).length < rest.length := by
  induction rest with
  | nil => simp at h
  | cons t rest ih =>
    cases t with
    | operator op =>
      have hrest : ∃ t ∈ rest, t.isOperator = false := by
        obtain ⟨t, ht, hop⟩ := h
        rcases List.mem_cons.mp ht with rfl | ht
        · cases hop
        · exact ⟨t, ht, hop⟩
      obtain ⟨hrun, hlength⟩ := ih hrest
      rw [List.cons_append, operatorRun, operatorRun, hrun]
      exact ⟨rfl, by simpa using hlength⟩
    | _ => simp [operatorRun]

/-- A field with its value takes nothing from what follows. -/
theorem fieldSegment_append (name : String) {rest : List Token}
    (h : ∃ t ∈ rest, t.isOperator = false) (more : List Token) :
    fieldSegment name (rest ++ more) = fieldSegment name rest ∧
      (fieldSegment name rest).2 ≤ rest.length := by
  obtain ⟨hrun, hlength⟩ := operatorRun_append h more
  constructor
  · rw [fieldSegment, fieldSegment, hrun, List.getElem?_append_left hlength]
  · rw [fieldSegment]
    split
    · exact hlength
    · exact hlength.le

theorem segmentsFrom_append {skip : Nat} {tokens : List Token} (hskip : skip ≤ tokens.length)
    (h : awaitsValue tokens = false) (more : List Token) :
    segmentsFrom skip (tokens ++ more) = segmentsFrom skip tokens ++ segmentsFrom 0 more := by
  induction tokens generalizing skip with
  | nil =>
    obtain rfl : skip = 0 := Nat.le_zero.mp hskip
    rfl
  | cons t rest ih =>
    obtain ⟨hvalue, hrest⟩ := awaitsValue_cons_eq_false.mp h
    cases skip with
    | succ skip => exact ih (Nat.le_of_succ_le_succ hskip) hrest
    | zero =>
      cases t with
      | field name =>
        obtain ⟨hsegment, htaken⟩ := fieldSegment_append name (hvalue rfl) more
        rw [List.cons_append, segmentsFrom, segmentsFrom, hsegment, ih htaken hrest]
        rfl
      | _ => exact congrArg _ (ih (Nat.zero_le _) hrest)

/-- Behind a query that does not end with a field and operators the segments start anew. -/
theorem segments_append {tokens : List Token} (h : awaitsValue tokens = false)
    (more : List Token) : segments (tokens ++ more) = segments tokens ++ segments more :=
  segmentsFrom_append (Nat.zero_le _) h more

/-! ## Pending negation -/

/-- Whether a `NOT` is still unused behind the segments, when `negate` says so before them. -/
def pending (negate : Bool) : List Segment → Bool
  | [] => negate
  | .not :: rest => pending true rest
  | .ignored :: rest => pending negate rest
  | .free _ :: rest | .dangling _ :: rest | .condition _ _ _ :: rest => pending false rest

/-- Nothing in the query waits for what may come behind it. -/
structure Complete (q : String) : Prop where
  /-- Quotes and brackets are closed. -/
  terminated : Token.terminated q.toList = true
  /-- The query does not end with a field and operators. -/
  valued : awaitsValue (tokenize q) = false
  /-- No `NOT` is unused in the end. -/
  settled : pending false (segments (tokenize q)) = false

/-! ## Filters and words -/

deriving instance DecidableEq for Parsed

/-- What two parts of a query say together. -/
def Parsed.append (p p' : Parsed) : Parsed := ⟨p.filters ++ p'.filters, p.words ++ p'.words⟩

theorem ofSegments_append (reference : Instant) (negate : Bool) (first more : List Segment) :
    ofSegments reference negate (first ++ more) = do
      let p ← ofSegments reference negate first
      return p.append (← ofSegments reference (pending negate first) more) := by
  induction first generalizing negate with
  | nil =>
    rw [List.nil_append, pending, ofSegments]
    cases ofSegments reference negate more <;> rfl
  | cons segment first ih =>
    cases segment with
    | not => exact ih true
    | ignored => exact ih negate
    | free literal =>
      rw [List.cons_append, ofSegments, ofSegments, ih false, pending]
      cases ofSegments reference false first with
      | error e => rfl
      | ok p => cases ofSegments reference (pending false first) more <;> rfl
    | dangling name =>
      rw [List.cons_append, ofSegments, ofSegments, ih false, pending]
      cases ofSegments reference false first with
      | error e => rfl
      | ok p => cases ofSegments reference (pending false first) more <;> rfl
    | condition name operators literal =>
      rw [List.cons_append, ofSegments, ofSegments, ih false, pending]
      cases condition reference name operators literal with
      | error e => rfl
      | ok found =>
        cases ofSegments reference false first with
        | error e => rfl
        | ok p => cases found <;> cases ofSegments reference (pending false first) more <;> rfl

/-! ## A query behind a complete one -/

theorem tokenize_append_blank {a b : String} (ha : Token.terminated a.toList = true)
    (hcolon : (trimStart b.toList).head? ≠ some ':')
    (hstray : endsInOperator false (tokenize a) = true → (trimStart b.toList).head? ≠ some ']') :
    tokenize (a ++ " " ++ b) = tokenize a ++ tokenize b := by
  have hgap : isBlank ' ' = true := by decide
  have htext : (a ++ " " ++ b).toList = a.toList ++ ' ' :: b.toList := by simp
  rw [tokenize_eq_scan] at hstray
  rw [tokenize_eq_scan, tokenize_eq_scan, tokenize_eq_scan, htext,
    scan_append hgap hcolon false false ha]
  exact congrArg _ (scan_behind_blank hstray false)

/-- A complete query and what follows it behind white space are read one after the other. -/
theorem parse_append_blank {a b : String} (ha : Complete a)
    (hcolon : (trimStart b.toList).head? ≠ some ':')
    (hstray : endsInOperator false (tokenize a) = true → (trimStart b.toList).head? ≠ some ']')
    (reference : Instant) :
    parse (a ++ " " ++ b) reference = do
      let p ← parse a reference
      return p.append (← parse b reference) := by
  rw [parse, tokenize_append_blank ha.terminated hcolon hstray, segments_append ha.valued,
    ofSegments_append, ha.settled]
  rfl

end Query
end LogLens
