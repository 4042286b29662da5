/-
Queries from texts.

  timeout database                  free text
  level:ERROR                       equality
  message:"connection reset"        equality with a phrase
  status:[500 TO 599]               a range, both ends included
  latency:>250  latency:<=1000      comparisons
  NOT level:DEBUG                   a filter turned around
  user:*                            the field is there
  path:/api*  host:*prod*  file:*.gz   starts with, contains, ends with

Filters and free text all have to hold; `AND` and `OR` are read and change nothing.  Every text is
a query: what makes no filter is free text.  The tokens are cut into segments, and each segment
makes one filter, some words, or nothing.
-/
import LogLens.Query.Filter
import LogLens.Query.TimeRange
import LogLens.Query.Token

namespace LogLens
namespace Query

/-! ## Literals -/

/-- A literal is a number if it can be one, else an instant, else a text.  It fails when it is a
time that cannot be placed. -/
def coerce (literal : String) (reference : Instant) : Except Stamp.OutOfRange FieldValue :=
  match parseNumber? literal with
  | some x => .ok (.number x)
  | none => do
    match ← Stamp.parse literal reference with
    | some t => return .date t
    | none => return .text literal

/-! ## Segments -/

/-- A value, with or without quotes or brackets. -/
inductive Literal where
  | word (s : String)
  | phrase (s : String)
  | range (s : String)
  deriving DecidableEq

def Literal.ofToken? : Token → Option Literal
  | .text s => some (.word s)
  | .value s => some (.phrase s)
  | .range s => some (.range s)
  | _ => none

def Literal.text : Literal → String
  | word s => s
  | phrase s => s
  | range s => s

inductive Segment where
  /-- A field, at least one operator, and a value. -/
  | condition (field : String) (operators : List Comparison) (literal : Literal)
  /-- A field without a value. -/
  | dangling (field : String)
  | free (literal : Literal)
  | not
  | ignored

/-- The operators at the front of a list of tokens. -/
def operatorRun : List Token → List Comparison
  | .operator op :: rest => op :: operatorRun rest
  | _ => []

/-- A field and the tokens behind it: the segment they make and how many of them it takes. -/
def fieldSegment (field : String) (rest : List Token) : Segment × Nat :=
  let operators := operatorRun rest
  let n := operators.length
  match operators, (rest[n]?).bind Literal.ofToken? with
  | _ :: _, some literal => (.condition field operators literal, n + 1)
  | _, _ => (.dangling field, n)

/-- The segments of a list of tokens from left to right; `skip` tokens belong to the last one. -/
def segmentsFrom : Nat → List Token → List Segment
  | _, [] => []
  | skip + 1, _ :: rest => segmentsFrom skip rest
  | 0, .field name :: rest =>
    (fieldSegment name rest).1 :: segmentsFrom (fieldSegment name rest).2 rest
  | 0, .not :: rest => .not :: segmentsFrom 0 rest
  | 0, t :: rest =>
    (match Literal.ofToken? t with
      | some literal => .free literal
      | none => .ignored) :: segmentsFrom 0 rest

def segments (tokens : List Token) : List Segment := segmentsFrom 0 tokens

/-! ## Filters -/

/-- A comparison behind a colon counts instead of equality, and the last of several counts. -/
def operatorOf (operators : List Comparison) : Operator :=
  operators.foldl (fun op c => match c with
    | .colon => op
    | .gt => .gt
    | .gte => .gte
    | .lt => .lt
    | .lte => .lte) .equals

/-- The word `TO` between white space. -/
def rangeSeparator : Pattern :=
  .inOrder [.oneOrMore isBlank, .one fun c => c == 'T' || c == 't',
    .one fun c => c == 'O' || c == 'o', .oneOrMore isBlank]

/-- The two bounds of a range literal. -/
def bounds? (literal : String) : Option (String × String) := do
  let inside ← (afterPrefix? ['['] literal.toList).bind (beforeSuffix? [']'])
  match rangeSeparator.split (trim inside) with
  | [low, high] =>
    if (trim low).isEmpty || (trim high).isEmpty then none
    else some (String.ofList (trim low), String.ofList (trim high))
  | _ => none

/-- The filter of a word with stars at its ends. -/
def wildcard? (field : String) (word : List Char) : Option Filter :=
  if word = ['*'] then some (.hasField field)
  else
    let core := trimMatches (· == '*') word
    let leading := word.head? == some '*'
    let trailing := word.getLast? == some '*' && 1 < word.length
    if core.isEmpty || core.contains '*' then none
    else
      let operand := Operand.scalar (.text (String.ofList core))
      match leading, trailing with
      | true, true => some ⟨field, .contains, operand, false⟩
      | false, true => some ⟨field, .startsWith, operand, false⟩
      | true, false => some ⟨field, .endsWith, operand, false⟩
      | false, false => none

/-- The filter that compares a field with a literal. -/
def comparison (reference : Instant) (field : String) (operators : List Comparison) (s : String) :
    Except Stamp.OutOfRange Filter := do
  return ⟨field, operatorOf operators, .scalar (← coerce s reference), false⟩

/-- The filter of a condition, if it makes one.  A range literal counts whatever the operators, and
stars count behind a mere colon only. -/
def condition (reference : Instant) (field : String) (operators : List Comparison) :
    Literal → Except Stamp.OutOfRange (Option Filter)
  | .range s => (bounds? s).mapM fun (low, high) => do
    return .between field (← coerce low reference) (← coerce high reference)
  | .phrase s => some <$> comparison reference field operators s
  | .word s =>
    match if operatorOf operators = .equals then wildcard? field s.toList else none with
    | some filter => .ok (some filter)
    | none => some <$> comparison reference field operators s

/-! ## Whole queries -/

/-- What a query text says. -/
structure Parsed where
  filters : List Filter
  words : List String

/-- Reads the segments; `negate` says that a `NOT` came before and was not used yet.  Free text
uses it up without effect. -/
def ofSegments (reference : Instant) (negate : Bool) :
    List Segment → Except Stamp.OutOfRange Parsed
  | [] => .ok ⟨[], []⟩
  | .not :: rest => ofSegments reference true rest
  | .ignored :: rest => ofSegments reference negate rest
  | .free literal :: rest => do
    let parsed ← ofSegments reference false rest
    return { parsed with words := literal.text :: parsed.words }
  | .dangling field :: rest => do
    let parsed ← ofSegments reference false rest
    return { parsed with words := field :: parsed.words }
  | .condition field operators literal :: rest => do
    let filter ← condition reference field operators literal
    let parsed ← ofSegments reference false rest
    match filter with
    | some filter => return { parsed with filters := { filter with negate } :: parsed.filters }
    | none => return { parsed with words := literal.text :: parsed.words }

/-- The free text of a query. -/
def Parsed.text (p : Parsed) : String := joinWith " " p.words

/-- Reads a query.  The reference is the time of reading. -/
def parse (s : String) (reference : Instant) : Except Stamp.OutOfRange Parsed :=
  ofSegments reference false (segments (tokenize s))

end Query

/-- What is searched for, and how the answer is given. -/
structure SearchQuery where
  text : String := ""
  filters : List Query.Filter := []
  timeRange : Query.TimeRange := Query.TimeRange.all
  /-- Words match within a small edit distance. -/
  fuzzy : Bool := false
  caseSensitive : Bool := false
  /-- Fields whose values are counted. -/
  aggregateBy : List String := []
  /-- How many records the answer holds at most. -/
  limit : Option Nat := none
  deriving DecidableEq

/-- The search for what a query text says. -/
def Query.Parsed.search (p : Query.Parsed) : SearchQuery :=
  { text := p.text, filters := p.filters }

end LogLens
