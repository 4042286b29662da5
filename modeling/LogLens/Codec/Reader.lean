/-
Values from JSON documents.

A structure is read from an object, in any order of its members, or from an array that lists its
parts in order.  Members with other names are passed over; a part that is given twice is refused.
Parts that have a default may be missing.  A field value has no mark of its type: the first type
that takes it counts.
-/
import LogLens.Codec.Identifier
import LogLens.Config
import LogLens.Time.Layout

namespace LogLens

/-! ## Plain values -/

namespace Json

/-- The integers that 64 bits hold, with or without a sign. -/
def isWord (n : Int) : Bool := Reader.minSigned ≤ n && n ≤ Reader.maxWord

def toBool? : Json → Option Bool
  | .bool b => some b
  | _ => none

def toText? : Json → Option String
  | .text s => some s
  | _ => none

/-- A count: an integer from 0 on. -/
def toNat? : Json → Option Nat
  | .number (.integer n) => if 0 ≤ n ∧ isWord n then some n.toNat else none
  | _ => none

def toBinary64? : Json → Option Binary64
  | .number (.integer n) => if isWord n then some (Binary64.ofInt n) else none
  | .number (.real x) => some x
  | _ => none

def toInstant? (j : Json) : Option Instant :=
  j.toText?.bind fun s => Layout.read? Layout.relaxed3339 s.toList

/-- A value or `null`. -/
def toOption? {α : Type} (f : Json → Option α) : Json → Option (Option α)
  | .null => some none
  | j => (f j).map some

def toList? {α : Type} (f : Json → Option α) : Json → Option (List α)
  | .array items => items.mapM f
  | _ => none

/-- A value that is chosen by its name.  The name may also be that of the only member of an object,
with the value `null`. -/
def toChoice? {α : Type} (ofName? : String → Option α) : Json → Option α
  | .text s => ofName? s
  | .object [(s, .null)] => ofName? s
  | _ => none

/-- An object as a dictionary; the last member of a name counts. -/
def toDict? {β : Type} (f : Json → Option β) : Json → Option (Dict String β)
  | .object members => (members.mapM fun m => (f m.2).map (m.1, ·)).map Dict.ofList
  | _ => none

/-! ## Structures -/

/-- What is given for a part of a structure; it is refused when it is given twice. -/
def part? (members : List (String × Json)) (name : String) : Option (Option Json) :=
  match members.filter (·.1 == name) with
  | [] => some none
  | [m] => some (some m.2)
  | _ => none

/-- What is given for the parts of a structure with the given names.  An array may list more items
than there are parts only if a surplus is passed over. -/
def parts? (names : List String) (surplus : Bool) : Json → Option (List (Option Json))
  | .object members => names.mapM (part? members)
  | .array items =>
    if surplus || items.length ≤ names.length then
      some ((List.range names.length).map (items[·]?))
    else none
  | _ => none

/-- A part that must be there. -/
def required? {α : Type} (f : Json → Option α) (part : Option Json) : Option α :=
  part.bind f

/-- A part that has a default. -/
def orDefault? {α : Type} (f : Json → Option α) (default : α) : Option Json → Option α
  | none => some default
  | some j => f j

end Json

open Json

/-! ## Records -/

def Level.ofJson? (j : Json) : Option Level := toChoice? Level.ofName? j

/-- The type that takes a value: number, truth value, date or text. -/
def FieldValue.ofJson? (j : Json) : Option FieldValue :=
  (j.toBinary64?.map .number).or <| (j.toBool?.map .bool).or <|
    (j.toInstant?.map .date).or (j.toText?.map .text)

def RecordId.ofJson? (j : Json) : Option RecordId := j.toText?.bind RecordId.ofText?

def Record.ofJson? (j : Json) : Option Record := do
  match ← parts? ["id", "timestamp", "level", "message", "file", "raw", "fields", "source",
      "service", "host", "line_number"] false j with
  | [id, timestamp, level, message, file, raw, fields, source, service, host, line] =>
    return {
      id := ← required? RecordId.ofJson? id
      timestamp := ← required? toInstant? timestamp
      level := ← required? Level.ofJson? level
      message := ← required? toText? message
      file := ← required? toText? file
      raw := ← required? toText? raw
      fields := ← orDefault? (toDict? FieldValue.ofJson?) Dict.empty fields
      source := ← orDefault? (toOption? toText?) none source
      service := ← orDefault? (toOption? toText?) none service
      host := ← orDefault? (toOption? toText?) none host
      line := ← orDefault? (toOption? toNat?) none line }
  | _ => none

/-! ## Queries -/

namespace Query

def Operator.ofJson? (j : Json) : Option Operator := toChoice? Operator.ofName? j

/-- A value alone, two values as a range, or `null`. -/
def Operand.ofJson? (j : Json) : Option Operand :=
  match FieldValue.ofJson? j, j with
  | some v, _ => some (.scalar v)
  | none, .array [low, high] => do
    return .range (← FieldValue.ofJson? low) (← FieldValue.ofJson? high)
  | none, .null => some .absent
  | none, _ => none

def Filter.ofJson? (j : Json) : Option Filter := do
  match ← parts? ["field", "operator", "value", "negate"] false j with
  | [field, operator, value, negate] =>
    return {
      field := ← required? toText? field
      operator := ← required? Operator.ofJson? operator
      operand := ← required? Operand.ofJson? value
      negate := ← orDefault? toBool? false negate }
  | _ => none

def Preset.ofJson? (j : Json) : Option Preset := toChoice? Preset.ofName? j

def TimeRange.ofJson? (j : Json) : Option TimeRange := do
  match ← parts? ["from", "to", "preset"] false j with
  | [start, finish, preset] =>
    return {
      start := ← required? toInstant? start
      finish := ← required? toInstant? finish
      preset := ← orDefault? (toOption? Preset.ofJson?) none preset }
  | _ => none

end Query

def SearchQuery.ofJson? (j : Json) : Option SearchQuery := do
  match ← parts? ["text", "filters", "time_range", "fuzzy", "case_sensitive", "aggregate_by",
      "limit"] false j with
  | [text, filters, timeRange, fuzzy, caseSensitive, aggregateBy, limit] =>
    return {
      text := ← orDefault? toText? "" text
      filters := ← orDefault? (toList? Query.Filter.ofJson?) [] filters
      timeRange := ← orDefault? Query.TimeRange.ofJson? Query.TimeRange.all timeRange
      fuzzy := ← orDefault? toBool? false fuzzy
      caseSensitive := ← orDefault? toBool? false caseSensitive
      aggregateBy := ← orDefault? (toList? toText?) [] aggregateBy
      limit := ← orDefault? (toOption? toNat?) none limit }
  | _ => none

/-! ## Rules -/

def ParserRules.ofJson? (surplus : Bool) (j : Json) : Option ParserRules := do
  let d : ParserRules := {}
  match ← parts? ["max_errors", "lenient_json", "extract_key_values"] surplus j with
  | [maxErrors, lenientJson, extractKeyValues] =>
    return {
      maxErrors := ← orDefault? toNat? d.maxErrors maxErrors
      lenientJson := ← orDefault? toBool? d.lenientJson lenientJson
      extractKeyValues := ← orDefault? toBool? d.extractKeyValues extractKeyValues }
  | _ => none

def IndexRules.ofJson? (surplus : Bool) (j : Json) : Option IndexRules := do
  let d : IndexRules := {}
  match ← parts? ["message_boost", "level_boost", "label_boost", "fuzziness", "max_edit_distance",
      "prefix_min_len", "max_examples"] surplus j with
  | [messageBoost, levelBoost, labelBoost, fuzziness, maxEditDistance, prefixMinLength,
      maxExamples] =>
    return {
      messageBoost := ← orDefault? toBinary64? d.messageBoost messageBoost
      levelBoost := ← orDefault? toBinary64? d.levelBoost levelBoost
      labelBoost := ← orDefault? toBinary64? d.labelBoost labelBoost
      fuzziness := ← orDefault? toBinary64? d.fuzziness fuzziness
      maxEditDistance := ← orDefault? toNat? d.maxEditDistance maxEditDistance
      prefixMinLength := ← orDefault? toNat? d.prefixMinLength prefixMinLength
      maxExamples := ← orDefault? toNat? d.maxExamples maxExamples }
  | _ => none

def IngestRules.ofJson? (surplus : Bool) (j : Json) : Option IngestRules := do
  let d : IngestRules := {}
  match ← parts? ["chunk_lines"] surplus j with
  | [chunkLines] => return { chunkLines := ← orDefault? toNat? d.chunkLines chunkLines }
  | _ => none

def Config.ofJson? (surplus : Bool) (j : Json) : Option Config := do
  match ← parts? ["parser", "index", "ingest"] surplus j with
  | [parser, index, ingest] =>
    return {
      parser := ← orDefault? (ParserRules.ofJson? surplus) {} parser
      index := ← orDefault? (IndexRules.ofJson? surplus) {} index
      ingest := ← orDefault? (IngestRules.ofJson? surplus) {} ingest }
  | _ => none

end LogLens
