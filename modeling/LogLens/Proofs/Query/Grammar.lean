/-
The grammar of queries.

The tokens of a query fall into clauses: fields with a value, fields without one, values of their
own, and single tokens.  There is one way to divide them (`Division.unique`), since the first tokens
tell what the first clause is (`Division.first`); and there is always one, since the scanner makes a
field only of a word with a colon behind it (`scan_led`).  The reader takes the clauses from left to
right, and what it keeps with it is whether a `NOT` came behind the last clause that counts
(`ofSegments_yields`).
-/
import LogLens.Proofs.Query.Words
import LogLens.Proofs.Query.Literals
import LogLens.Proofs.Time.Placement

namespace LogLens
namespace Query

open Token

/-! ## Clauses -/

def Literal.token : Literal → Token
  | .word s => .text s
  | .phrase s => .value s
  | .range s => .range s

theorem Literal.ofToken?_token (literal : Literal) : ofToken? literal.token = some literal := by
  cases literal <;> rfl

theorem Literal.eq_token {t : Token} {literal : Literal} (h : ofToken? t = some literal) :
    t = literal.token := by
  cases t <;> cases h <;> rfl

theorem Literal.isOperator_token (literal : Literal) : literal.token.isOperator = false :=
  (isOperator_of_literal literal.ofToken?_token).1

inductive Clause where
  /-- A field with operators and a value. -/
  | condition (name : String) (operators : List Comparison) (literal : Literal)
  /-- A field with operators and no value. -/
  | dangling (name : String) (operators : List Comparison)
  | free (literal : Literal)
  | single (t : Token)

namespace Clause

def tokens : Clause → List Token
  | condition name operators literal => .field name :: (operators.map .operator ++ [literal.token])
  | dangling name operators => .field name :: operators.map .operator
  | free literal => [literal.token]
  | single t => [t]

/-- What the clause is to the reader. -/
def segment : Clause → Segment
  | condition name operators literal => .condition name operators literal
  | dangling name _ => .dangling name
  | free literal => .free literal
  | single .not => .not
  | single _ => .ignored

end Clause

/-- Tokens that are divided into clauses from left to right.  A field takes all the operators behind
it, and a value behind these. -/
inductive Division : List Token → List Clause → Prop
  | nil : Division [] []
  | condition {operators : List Comparison} {rest : List Token} {clauses : List Clause}
      (name : String) (hoperators : operators ≠ []) (literal : Literal)
      (hrest : Division rest clauses) :
      Division (.field name :: (operators.map .operator ++ literal.token :: rest))
        (.condition name operators literal :: clauses)
  | dangling {rest : List Token} {clauses : List Clause} (name : String)
      (operators : List Comparison)
      (hend : ∀ t ∈ rest.head?, t.isOperator = false ∧ Literal.ofToken? t = none)
      (hrest : Division rest clauses) :
      Division (.field name :: (operators.map .operator ++ rest))
        (.dangling name operators :: clauses)
  | free {rest : List Token} {clauses : List Clause} (literal : Literal)
      (hrest : Division rest clauses) : Division (literal.token :: rest) (.free literal :: clauses)
  | single {t : Token} {rest : List Token} {clauses : List Clause} (hfield : t.isField = false)
      (hliteral : Literal.ofToken? t = none) (hrest : Division rest clauses) :
      Division (t :: rest) (.single t :: clauses)

/-- No token is left out, and none is used twice. -/
theorem Division.flatMap_tokens {tokens : List Token} {clauses : List Clause}
    (h : Division tokens clauses) : clauses.flatMap Clause.tokens = tokens := by
  induction h with
  | nil => rfl
  | condition name _ literal _ ih => simp [Clause.tokens, ih]
  | dangling name operators _ _ ih => simp [Clause.tokens, ih]
  | free literal _ ih => simp [Clause.tokens, ih]
  | single _ _ _ ih => simp [Clause.tokens, ih]

/-! ## One division -/

section Operators

variable {rest : List Token} (operators : List Comparison)
  (h : ∀ t ∈ rest.head?, t.isOperator = false)

include h in
theorem operatorRun_head : operatorRun (operators.map .operator ++ rest) = operators := by
  cases rest with
  | nil =>
    induction operators with
    | nil => rfl
    | cons op operators ih => exact congrArg (op :: ·) ih
  | cons t rest => exact operatorRun_map operators (h t rfl) rest

theorem getElem?_operators :
    (operators.map Token.operator ++ rest)[operators.length]? = rest.head? := by
  rw [List.getElem?_append_right (by rw [List.length_map]), List.length_map, Nat.sub_self,
    List.head?_eq_getElem?]

theorem exists_operators (tokens : List Token) :
    ∃ (operators : List Comparison) (rest : List Token),
      tokens = operators.map .operator ++ rest ∧ ∀ t ∈ rest.head?, t.isOperator = false := by
  induction tokens with
  | nil => exact ⟨[], [], rfl, fun t ht => by cases ht⟩
  | cons t tokens ih =>
    by_cases hop : t.isOperator = true
    · obtain ⟨operators, rest, rfl, hrest⟩ := ih
      cases t with
      | operator op => exact ⟨op :: operators, rest, rfl, hrest⟩
      | _ => cases hop
    · refine ⟨[], t :: tokens, rfl, fun t' ht' => ?_⟩
      obtain rfl := Option.some.inj ht'
      exact Bool.eq_false_iff.mpr hop

end Operators

/-- The clause that some tokens begin with. -/
def firstClause : List Token → Option Clause
  | [] => none
  | .field name :: rest =>
    match (rest[(operatorRun rest).length]?).bind Literal.ofToken? with
    | some literal => some (.condition name (operatorRun rest) literal)
    | none => some (.dangling name (operatorRun rest))
  | t :: _ =>
    match Literal.ofToken? t with
    | some literal => some (.free literal)
    | none => some (.single t)

theorem Division.first {tokens : List Token} {c : Clause} {clauses : List Clause}
    (h : Division tokens (c :: clauses)) : firstClause tokens = some c ∧
      ∃ rest, tokens = c.tokens ++ rest ∧ Division rest clauses := by
  cases h with
  | @condition operators rest _ name _ literal hrest =>
    have hhead : ∀ t ∈ (literal.token :: rest).head?, t.isOperator = false := by
      intro t ht
      obtain rfl := Option.some.inj ht
      exact literal.isOperator_token
    refine ⟨?_, rest, by simp [Clause.tokens], hrest⟩
    rw [firstClause, operatorRun_head operators hhead, getElem?_operators, List.head?_cons,
      Option.bind_some, literal.ofToken?_token]
  | @dangling rest _ name operators hend hrest =>
    refine ⟨?_, rest, rfl, hrest⟩
    have hnone : rest.head?.bind Literal.ofToken? = none := by
      cases rest with
      | nil => rfl
      | cons t rest => exact (hend t rfl).2
    rw [firstClause, operatorRun_head operators fun t ht => (hend t ht).1, getElem?_operators,
      hnone]
  | free literal hrest => exact ⟨by cases literal <;> rfl, _, rfl, hrest⟩
  | @single t rest _ hfield hliteral hrest =>
    refine ⟨?_, rest, rfl, hrest⟩
    cases t with
    | field name => cases hfield
    | text s | value s | range s => cases hliteral
    | _ => rfl

/-- The first tokens decide what the first clause is, and the rest is divided in the same way. -/
theorem Division.unique {tokens : List Token} {clauses clauses' : List Clause}
    (h : Division tokens clauses) (h' : Division tokens clauses') : clauses = clauses' := by
  induction clauses generalizing tokens clauses' with
  | nil =>
    cases h
    cases clauses' with
    | nil => rfl
    | cons c clauses' => cases h'.first.1
  | cons c clauses ih =>
    obtain ⟨hfirst, rest, htokens, hrest⟩ := h.first
    cases clauses' with
    | nil =>
      cases h'
      cases hfirst
    | cons c' clauses' =>
      obtain ⟨hfirst', rest', htokens', hrest'⟩ := h'.first
      obtain rfl := Option.some.inj (hfirst.symm.trans hfirst')
      obtain rfl := List.append_cancel_left (htokens.symm.trans htokens')
      rw [ih hrest hrest']

/-! ## Tokens of texts -/

/-- Behind every field there is an operator. -/
def Led (tokens : List Token) : Prop :=
  ∀ name rest, .field name :: rest <:+ tokens → ∃ op more, rest = .operator op :: more

theorem Led.suffix {tokens rest : List Token} (h : Led tokens) (hrest : rest <:+ tokens) :
    Led rest :=
  fun name more hmore => h name more (hmore.trans hrest)

theorem led_cons {t : Token} {rest : List Token}
    (hfield : t.isField = true → ∃ op more, rest = .operator op :: more) (h : Led rest) :
    Led (t :: rest) := by
  intro name more hmore
  rcases List.suffix_cons_iff.mp hmore with heq | hmore
  · obtain ⟨rfl, rfl⟩ := List.cons.inj heq
    exact hfield rfl
  · exact h name more hmore

theorem scan_before_colon {cs : List Char} (h : (trimStart cs).head? = some ':') (op bl : Bool) :
    ∃ more, scan op bl cs = .operator .colon :: more := by
  induction cs generalizing bl with
  | nil => cases h
  | cons c cs ih =>
    rw [trimStart, List.dropWhile_cons] at h
    by_cases hblank : isBlank c = true
    · rw [if_pos hblank] at h
      rw [scan_blank op bl cs hblank]
      exact ih h true
    · rw [if_neg hblank] at h
      obtain rfl := Option.some.inj h
      exact ⟨_, scan_colon op bl cs⟩

theorem colon_of_isField {word rest : List Char} (h : (ofWord word rest).isField = true) :
    (trimStart rest).head? = some ':' := by
  unfold ofWord at h
  repeat' split at h
  any_goals cases h
  rename_i hcolon
  exact eq_of_beq hcolon

theorem scan_led (op bl : Bool) (cs : List Char) : Led (scan op bl cs) := by
  -- A token may take many characters, so the induction is on the length.
  induction hlength : cs.length using Nat.strongRecOn generalizing op bl cs with
  | ind n ih =>
  subst hlength
  cases cs with
  | nil =>
    rw [scan_nil]
    exact fun name rest hrest => absurd (List.suffix_nil.mp hrest) (List.cons_ne_nil _ _)
  | cons c rest =>
    rcases kind_cases c with hblank | rfl | rfl | rfl | hangle | hparen | rfl | hword
    · rw [scan_blank op bl rest hblank]
      exact ih _ (by simp) op true rest rfl
    · have hshort := length_quoted_le rest
      rw [scan_quote]
      exact led_cons (fun h => by cases h) (ih _ (by simp; omega) false false _ rfl)
    · have hshort := length_bracketed_le rest
      rw [scan_bracket]
      exact led_cons (fun h => by cases h) (ih _ (by simp; omega) false false _ rfl)
    · rw [scan_colon]
      exact led_cons (fun h => by cases h) (ih _ (by simp) true false rest rfl)
    · have hshort := length_comparison_le c rest
      rw [scan_angle _ _ _ hangle]
      exact led_cons (fun h => by cases h) (ih _ (by simp; omega) true false _ rfl)
    · rw [scan_paren _ _ _ hparen]
      exact led_cons (fun h => by cases h) (ih _ (by simp) false false rest rfl)
    · rw [scan_stray]
      exact ih _ (by simp) op false rest rfl
    · by_cases hmode : (op && !bl) = true
      · obtain ⟨rfl, rfl⟩ : op = true ∧ bl = false := by simpa using hmode
        have hshort := length_dropWhile_le (!endsValue ·) rest
        rw [scan_value _ hword]
        exact led_cons (fun h => by cases h) (ih _ (by simp; omega) false false _ rfl)
      · have hshort := length_dropWhile_le (!isSpecial ·) rest
        rw [scan_word _ _ _ hword (Bool.eq_false_iff.mpr hmode)]
        refine led_cons (fun hfield => ?_) (ih _ (by simp; omega) false false _ rfl)
        exact ⟨.colon, scan_before_colon (colon_of_isField hfield) false false⟩

theorem led_tokenize (s : String) : Led (tokenize s) := by
  rw [tokenize_eq_scan]
  exact scan_led false false s.toList

theorem Led.exists_division {tokens : List Token} (h : Led tokens) :
    ∃ clauses, Division tokens clauses := by
  induction hlength : tokens.length using Nat.strongRecOn generalizing tokens with
  | ind n ih =>
  subst hlength
  cases tokens with
  | nil => exact ⟨[], .nil⟩
  | cons t rest =>
    cases hliteral : Literal.ofToken? t with
    | some literal =>
      obtain ⟨clauses, hclauses⟩ :=
        ih rest.length (by simp) (h.suffix (List.suffix_cons t rest)) rfl
      obtain rfl := Literal.eq_token hliteral
      exact ⟨_, .free literal hclauses⟩
    | none =>
      by_cases hfield : t.isField = true
      · obtain ⟨name, rfl⟩ : ∃ name, t = .field name := by
          cases t <;> first | exact ⟨_, rfl⟩ | cases hfield
        obtain ⟨op, more, hmore⟩ := h name rest List.suffix_rfl
        obtain ⟨operators, behind, rfl, hbehind⟩ := exists_operators rest
        have hsuffix : behind <:+ .field name :: (operators.map Token.operator ++ behind) :=
          (List.suffix_append _ _).trans (List.suffix_cons _ _)
        cases hvalue : behind.head?.bind Literal.ofToken? with
        | none =>
          obtain ⟨clauses, hclauses⟩ := ih behind.length (by simp) (h.suffix hsuffix) rfl
          refine ⟨_, .dangling name operators (fun t ht => ⟨hbehind t ht, ?_⟩) hclauses⟩
          rwa [Option.mem_def.mp ht] at hvalue
        | some literal =>
          obtain ⟨t, ht, hliteral⟩ := Option.bind_eq_some_iff.mp hvalue
          obtain ⟨behind, rfl⟩ := List.head?_eq_some_iff.mp ht
          obtain rfl := Literal.eq_token hliteral
          obtain ⟨clauses, hclauses⟩ := ih behind.length (by simp; omega)
            (h.suffix ((List.suffix_cons _ _).trans hsuffix)) rfl
          have hne : operators ≠ [] := by
            rintro rfl
            have hop := literal.isOperator_token
            rw [(List.cons.inj hmore).1] at hop
            cases hop
          exact ⟨_, .condition name hne literal hclauses⟩
      · obtain ⟨clauses, hclauses⟩ :=
          ih rest.length (by simp) (h.suffix (List.suffix_cons t rest)) rfl
        exact ⟨_, .single (Bool.eq_false_iff.mpr hfield) hliteral hclauses⟩

/-! ## Segments -/

theorem segmentsFrom_skip (taken rest : List Token) :
    segmentsFrom taken.length (taken ++ rest) = segments rest := by
  induction taken with
  | nil => rfl
  | cons t taken ih => exact ih

theorem segments_field {name : String} {rest taken behind : List Token} {segment : Segment}
    (hsegment : fieldSegment name rest = (segment, taken.length)) (hrest : rest = taken ++ behind) :
    segments (.field name :: rest) = segment :: segments behind := by
  show (fieldSegment name rest).1 :: segmentsFrom (fieldSegment name rest).2 rest = _
  rw [hsegment, hrest, segmentsFrom_skip]

/-- The reader takes the tokens clause by clause. -/
theorem Division.segments_eq {tokens : List Token} {clauses : List Clause}
    (h : Division tokens clauses) : segments tokens = clauses.map Clause.segment := by
  induction h with
  | nil => rfl
  | @condition operators rest clauses name hoperators literal hrest ih =>
    obtain ⟨op, operators, rfl⟩ := List.exists_cons_of_ne_nil hoperators
    have hhead : ∀ t ∈ (literal.token :: rest).head?, t.isOperator = false := by
      intro t ht
      obtain rfl := Option.some.inj ht
      exact literal.isOperator_token
    have hsegment : fieldSegment name ((op :: operators).map .operator ++ literal.token :: rest) =
        (.condition name (op :: operators) literal,
          ((op :: operators).map Token.operator ++ [literal.token]).length) := by
      rw [fieldSegment, operatorRun_head _ hhead, getElem?_operators, List.head?_cons,
        Option.bind_some, literal.ofToken?_token]
      simp
    rw [segments_field hsegment (List.append_cons _ _ _), ih]
    rfl
  | @dangling rest clauses name operators hend hrest ih =>
    have hnone : rest.head?.bind Literal.ofToken? = none := by
      cases rest with
      | nil => rfl
      | cons t rest => exact (hend t rfl).2
    have hsegment : fieldSegment name (operators.map .operator ++ rest) =
        (.dangling name, (operators.map Token.operator).length) := by
      rw [fieldSegment, operatorRun_head operators fun t ht => (hend t ht).1, getElem?_operators,
        hnone, List.length_map]
      cases operators <;> rfl
    rw [segments_field hsegment rfl, ih]
    rfl
  | free literal _ ih => cases literal <;> exact congrArg _ ih
  | @single t _ _ hfield hliteral _ ih =>
    cases t with
    | field name => cases hfield
    | text s | value s | range s => cases hliteral
    | _ => exact congrArg _ ih

/-! ## Filters and words -/

/-- A `NOT` stands before, and only single tokens behind it. -/
def Negated (before : List Clause) : Prop :=
  ∃ first behind, before = first ++ .single .not :: behind ∧ ∀ c ∈ behind, ∃ t, c = .single t

/-- What a clause adds to the filters and the words of a query, when others stand before it. -/
inductive Adds (reference : Instant) (before : List Clause) :
    Clause → List Filter → List String → Prop
  | filter {name : String} {operators : List Comparison} {literal : Literal} {op : Operator}
      {operand : Operand} {negate : Bool} (hread : ReadAs reference operators literal op operand)
      (hnegate : negate = true ↔ Negated before) :
      Adds reference before (.condition name operators literal) [⟨name, op, operand, negate⟩] []
  | unread {name : String} {operators : List Comparison} {s : String}
      (hrange : ∀ low high, ¬IsRange s low high) :
      Adds reference before (.condition name operators (.range s)) [] [s]
  | dangling (name : String) (operators : List Comparison) :
      Adds reference before (.dangling name operators) [] [name]
  | free (literal : Literal) : Adds reference before (.free literal) [] [literal.text]
  | single (t : Token) : Adds reference before (.single t) [] []

/-- Clauses add their filters and words in their order, each behind all that stand before it. -/
inductive Yields (reference : Instant) : List Clause → List Clause → Parsed → Prop
  | nil (before : List Clause) : Yields reference before [] ⟨[], []⟩
  | cons {before clauses : List Clause} {c : Clause} {filters : List Filter} {words : List String}
      {p : Parsed} (hadds : Adds reference before c filters words)
      (hrest : Yields reference (before ++ [c]) clauses p) :
      Yields reference before (c :: clauses) ⟨filters ++ p.filters, words ++ p.words⟩

theorem negated_concat (before : List Clause) (t : Token) :
    Negated (before ++ [.single t]) ↔ t = .not ∨ Negated before := by
  constructor
  · rintro ⟨first, behind, heq, hbehind⟩
    rcases List.eq_nil_or_concat behind with rfl | ⟨behind, c, rfl⟩
    · obtain ⟨-, hlast⟩ := List.append_inj' heq rfl
      exact Or.inl (Clause.single.inj (List.cons.inj hlast).1)
    · rw [List.concat_eq_append, ← List.cons_append, ← List.append_assoc] at heq
      obtain ⟨rfl, -⟩ := List.append_inj' heq rfl
      refine Or.inr ⟨first, behind, rfl, fun c hc => hbehind c ?_⟩
      rw [List.concat_eq_append]
      exact List.mem_append_left _ hc
  · rintro (rfl | ⟨first, behind, rfl, hbehind⟩)
    · exact ⟨before, [], rfl, List.forall_mem_nil _⟩
    · refine ⟨first, behind ++ [.single t], by simp, List.forall_mem_append.mpr ⟨hbehind, ?_⟩⟩
      exact List.forall_mem_singleton.mpr ⟨t, rfl⟩

/-- Any clause but a single token uses up what is negated. -/
theorem not_negated_concat (before : List Clause) {c : Clause} (hc : ∀ t, c ≠ .single t) :
    ¬Negated (before ++ [c]) := by
  rintro ⟨first, behind, heq, hbehind⟩
  have hmem : c ∈ .single .not :: behind := by
    have hlast := congrArg List.getLast? heq
    rw [List.getLast?_concat, List.getLast?_append_of_ne_nil _ (List.cons_ne_nil _ _)] at hlast
    exact List.mem_of_getLast? hlast.symm
  rcases List.mem_cons.mp hmem with rfl | hmem
  · exact hc .not rfl
  · obtain ⟨t, rfl⟩ := hbehind c hmem
    exact hc t rfl

/-- One clause: what it adds, and whether a `NOT` waits behind it. -/
theorem ofSegments_step (reference : Instant) {before : List Clause} {negate : Bool}
    (hnegate : negate = true ↔ Negated before) (c : Clause) :
    (∃ filters words negate', Adds reference before c filters words ∧
      (negate' = true ↔ Negated (before ++ [c])) ∧
      ∀ rest, ofSegments reference negate (c.segment :: rest) =
        (ofSegments reference negate' rest).map fun p =>
          ⟨filters ++ p.filters, words ++ p.words⟩) ∨
    (∀ rest, ofSegments reference negate (c.segment :: rest) = .error ⟨⟩) ∧
      ∃ s, coerce s reference = .error ⟨⟩ := by
  have hafter : (∀ t, c ≠ .single t) → (false = true ↔ Negated (before ++ [c])) :=
    fun hc => iff_of_false Bool.false_ne_true (not_negated_concat before hc)
  cases c with
  | condition name operators literal =>
    have houtcome := outcome_condition reference name operators literal
    generalize hresult : condition reference name operators literal = result at houtcome
    cases houtcome with
    | filter hread =>
      refine Or.inl ⟨_, _, false, .filter hread hnegate, hafter (by simp), fun rest => ?_⟩
      rw [Clause.segment, ofSegments, hresult]
      cases ofSegments reference false rest <;> rfl
    | unread hrange =>
      refine Or.inl ⟨_, _, false, .unread hrange, hafter (by simp), fun rest => ?_⟩
      rw [Clause.segment, ofSegments, hresult]
      cases ofSegments reference false rest <;> rfl
    | failed hs =>
      refine Or.inr ⟨fun rest => ?_, _, hs⟩
      rw [Clause.segment, ofSegments, hresult]
      rfl
  | dangling name operators =>
    refine Or.inl ⟨_, _, false, .dangling name operators, hafter (by simp), fun rest => ?_⟩
    rw [Clause.segment, ofSegments]
    cases ofSegments reference false rest <;> rfl
  | free literal =>
    refine Or.inl ⟨_, _, false, .free literal, hafter (by simp), fun rest => ?_⟩
    rw [Clause.segment, ofSegments]
    cases ofSegments reference false rest <;> rfl
  | single t =>
    by_cases ht : t = .not
    · subst ht
      refine Or.inl ⟨_, _, true, .single .not, ?_, fun rest => ?_⟩
      · exact iff_of_true rfl ((negated_concat before .not).mpr (Or.inl rfl))
      · rw [Clause.segment, ofSegments]
        cases ofSegments reference true rest <;> rfl
    · refine Or.inl ⟨_, _, negate, .single t, ?_, fun rest => ?_⟩
      · rw [negated_concat, hnegate]
        exact ⟨Or.inr, fun h => h.resolve_left ht⟩
      · have hignored : (Clause.single t).segment = .ignored := by
          cases t <;> first | rfl | exact absurd rfl ht
        rw [hignored, ofSegments]
        cases ofSegments reference negate rest <;> rfl

/-- The reader keeps with it whether a `NOT` came behind the last clause that counts. -/
theorem ofSegments_yields (reference : Instant) (clauses before : List Clause) (negate : Bool)
    (hnegate : negate = true ↔ Negated before) :
    (∃ p, ofSegments reference negate (clauses.map Clause.segment) = .ok p ∧
      Yields reference before clauses p) ∨
    ofSegments reference negate (clauses.map Clause.segment) = .error ⟨⟩ ∧
      ∃ s, coerce s reference = .error ⟨⟩ := by
  induction clauses generalizing before negate with
  | nil => exact Or.inl ⟨⟨[], []⟩, rfl, .nil before⟩
  | cons c clauses ih =>
    rw [List.map_cons]
    rcases ofSegments_step reference hnegate c with
      ⟨filters, words, negate', hadds, hnegate', hstep⟩ | ⟨hstep, hs⟩
    · rw [hstep]
      rcases ih (before ++ [c]) negate' hnegate' with ⟨p, hp, hyields⟩ | ⟨herror, hs⟩
      · exact Or.inl ⟨_, by rw [hp]; rfl, .cons hadds hyields⟩
      · exact Or.inr ⟨by rw [herror]; rfl, hs⟩
    · exact Or.inr ⟨hstep _, hs⟩

/-- The tokens of a text fall into clauses in one way and without rest, and the text is read clause
by clause.  Nothing is read only when a value is a time without a year that would have to be placed
from the last representable day. -/
theorem parse_grammar (s : String) (reference : Instant) :
    ∃ clauses, Division (tokenize s) clauses ∧
      (∀ other, Division (tokenize s) other → other = clauses) ∧
      clauses.flatMap Clause.tokens = tokenize s ∧
      ((∃ p, parse s reference = .ok p ∧ Yields reference [] clauses p) ∨
        parse s reference = .error ⟨⟩ ∧ ¬reference.HasNextDay) := by
  obtain ⟨clauses, hclauses⟩ := (led_tokenize s).exists_division
  refine ⟨clauses, hclauses, fun other hother => hother.unique hclauses, hclauses.flatMap_tokens,
    ?_⟩
  have hnone : false = true ↔ Negated [] := by
    refine iff_of_false Bool.false_ne_true ?_
    rintro ⟨first, behind, heq, -⟩
    cases first <;> cases heq
  have hparse : parse s reference =
      ofSegments reference false (clauses.map Clause.segment) := by
    rw [parse, ← hclauses.segments_eq]
  rw [hparse]
  rcases ofSegments_yields reference clauses [] false hnone with hread | ⟨herror, s, hs⟩
  · exact Or.inl hread
  · refine Or.inr ⟨herror, fun hday => ?_⟩
    obtain ⟨v, hv⟩ := coerce_isOk hday s
    exact absurd (hv.symm.trans hs) (by simp)

/-- On the last representable day a query that asks for a time without a year is not read. -/
theorem parse_grammar_lastDay :
    ¬∃ clauses p, Division (tokenize "x at:<\"Oct  1 12:00:00\"") clauses ∧
      parse "x at:<\"Oct  1 12:00:00\"" .latest = .ok p ∧ Yields .latest [] clauses p := by
  have herror : (parse "x at:<\"Oct  1 12:00:00\"" .latest).toOption = none := by decide +kernel
  rintro ⟨clauses, p, -, hp, -⟩
  rw [hp] at herror
  cases herror

end Query
end LogLens
