/-
Whether a record passes a filter.

Values compare as numbers when both can be numbers, else as instants, else as texts; levels compare
by severity.  A field that a record does not carry passes every filter but the one that asks for
the field.  Texts that look like timestamps are read at the time of asking, `now`.
-/
import LogLens.Query.Filter
import LogLens.Text.Lowercase
import LogLens.Time.Stamp

namespace LogLens
namespace Match

open Query

/-! ## Views of values -/

/-- The value as an instant. -/
def instant? (now : Instant) : FieldValue → Option Instant
  | .date t => some t
  | .text s => Stamp.parse? s now
  | _ => none

/-- The value as a number that can be compared: instants count milliseconds since 1970. -/
def comparable? (now : Instant) (v : FieldValue) : Option Binary64 :=
  v.number?.or ((instant? now v).map fun t => Binary64.ofInt t.millis)

/-- The value as a level: a spelling of one, or any number. -/
def level? : FieldValue → Option Level
  | .text s => Level.ofWord? s
  | .number x => some (Level.ofNumber x)
  | _ => none

/-! ## Comparisons -/

/-- Whether an order is one that a comparison asks for. -/
def holds (op : Operator) (o : Ordering) : Bool :=
  match op with
  | .gt => o == .gt
  | .gte => o != .lt
  | .lt => o == .lt
  | .lte => o != .gt
  | _ => false

def folded (caseSensitive : Bool) (s : String) : List Char :=
  if caseSensitive then s.toList else Lowercase.chars s.toList

def valuesEqual (now : Instant) (caseSensitive : Bool) (actual expected : FieldValue) : Bool :=
  match actual.number?, expected.number? with
  | some a, some e => a.numEq e
  | _, _ =>
    match instant? now actual, instant? now expected with
    | some a, some e => a == e
    | _, _ => folded caseSensitive actual.display == folded caseSensitive expected.display

def textMatches (op : Operator) (caseSensitive : Bool) (actual expected : FieldValue) : Bool :=
  let text := folded caseSensitive actual.display
  let part := folded caseSensitive expected.display
  match op with
  | .contains => occursIn part text
  | .startsWith => part.isPrefixOf text
  | .endsWith => part.isSuffixOf text
  | _ => false

/-- Whether a value passes a filter that is not turned around. -/
def evaluate (now : Instant) (caseSensitive : Bool) (actual : FieldValue) (op : Operator)
    (expected : Operand) : Bool :=
  match op, expected with
  | .present, _ => true
  | .equals, .scalar e => valuesEqual now caseSensitive actual e
  | .contains, .scalar e => textMatches .contains caseSensitive actual e
  | .startsWith, .scalar e => textMatches .startsWith caseSensitive actual e
  | .endsWith, .scalar e => textMatches .endsWith caseSensitive actual e
  | .range, .range low high =>
    match comparable? now actual, comparable? now low, comparable? now high with
    | some a, some lo, some hi => lo.numLe a && a.numLe hi
    | _, _, _ => false
  | .gt, .scalar e | .gte, .scalar e | .lt, .scalar e | .lte, .scalar e =>
    match comparable? now actual, comparable? now e with
    | some a, some e => ((a.compare? e).map (holds op)).getD false
    | _, _ => false
  | _, _ => false

/-- Whether a level passes a filter that is not turned around.  There is no answer when the filter's
value is no level; then the level counts as the text it is shown as. -/
def evaluateLevel? (actual : Level) (op : Operator) (expected : Operand) : Option Bool :=
  match op, expected with
  | .equals, .scalar e => (level? e).map (actual == ·)
  | .gt, .scalar e | .gte, .scalar e | .lt, .scalar e | .lte, .scalar e =>
    (level? e).map fun l => holds op (actual.compare l)
  | .range, .range low high =>
    match level? low, level? high with
    | some lo, some hi => some (holds .lte (lo.compare actual) && holds .lte (actual.compare hi))
    | _, _ => none
  | _, _ => none

/-! ## Filters -/

/-- Whether an entry passes a filter. -/
def passes (now : Instant) (caseSensitive : Bool) (e : Entry) (f : Filter) : Bool :=
  match e.field? f.field with
  | none => if f.operator = .present then f.negate else true
  | some actual =>
    let plain := evaluate now caseSensitive actual f.operator f.operand
    let outcome :=
      if f.field = "level" then (evaluateLevel? e.level f.operator f.operand).getD plain else plain
    outcome != f.negate

def passesAll (now : Instant) (caseSensitive : Bool) (e : Entry) (filters : List Filter) : Bool :=
  filters.all (passes now caseSensitive e)

end Match
end LogLens
