/-
JSON documents of the values that are kept or shown.

The members of an object stand in the order of the structure they describe.  Values that are not
set are left out, except where a reader could not tell that they exist.
-/
import LogLens.Codec.Identifier
import LogLens.Config
import LogLens.Ingest

namespace LogLens

/-! ## Building blocks -/

namespace Json

/-- A member that is written only if it is set. -/
def optional {α : Type} (name : String) (f : α → Json) (value : Option α) : List (String × Json) :=
  (value.map fun v => (name, f v)).toList

/-- A value, or `null` if it is not set. -/
def orNull {α : Type} (f : α → Json) : Option α → Json
  | some v => f v
  | none => .null

def list {α : Type} (f : α → Json) (l : List α) : Json := .array (l.map f)

/-- A dictionary as an object, in the order of its keys. -/
def dict {β : Type} (f : β → Json) (d : Dict String β) : Json :=
  .object (d.entries.map fun (k, v) => (k, f v))

def instant (t : Instant) : Json := .text t.toShortText

mutual

/-- The value with the members of all its objects in the order of their names. -/
def sorted : Json → Json
  | .array items => .array (sortedItems items)
  | .object members => .object (sortedMembers members)
  | j => j

def sortedItems : List Json → List Json
  | [] => []
  | j :: rest => sorted j :: sortedItems rest

def sortedMember : String × Json → String × Json
  | (name, j) => (name, sorted j)

def sortedMembers : List (String × Json) → List (String × Json)
  | [] => []
  | m :: rest =>
    let (name, j) := sortedMember m
    Dict.alterEntries name (fun _ => some j) (sortedMembers rest)

end

end Json

/-! ## Records -/

def Level.toJson (level : Level) : Json := .text level.name

def FieldValue.toJson : FieldValue → Json
  | number x => .real x
  | bool b => .bool b
  | date t => .instant t
  | text s => .text s

def Record.toJson (r : Record) : Json :=
  .object ([
    ("id", .text r.id.text),
    ("timestamp", .instant r.timestamp),
    ("level", r.level.toJson),
    ("message", .text r.message),
    ("file", .text r.file),
    ("raw", .text r.raw)] ++
    (if r.fields.isEmpty then [] else [("fields", Json.dict FieldValue.toJson r.fields)]) ++
    Json.optional "source" .text r.source ++
    Json.optional "service" .text r.service ++
    Json.optional "host" .text r.host ++
    Json.optional "line_number" .nat r.line)

/-! ## Queries -/

namespace Query

def Operator.toJson (op : Operator) : Json := .text op.name

def Operand.toJson : Operand → Json
  | scalar v => v.toJson
  | range low high => .array [low.toJson, high.toJson]
  | absent => .null

def Filter.toJson (f : Filter) : Json :=
  .object [
    ("field", .text f.field),
    ("operator", f.operator.toJson),
    ("value", f.operand.toJson),
    ("negate", .bool f.negate)]

def Preset.toJson (p : Preset) : Json := .text p.name

def TimeRange.toJson (r : TimeRange) : Json :=
  .object ([("from", .instant r.start), ("to", .instant r.finish)] ++
    Json.optional "preset" Preset.toJson r.preset)

end Query

def SearchQuery.toJson (q : SearchQuery) : Json :=
  .object [
    ("text", .text q.text),
    ("filters", .list Query.Filter.toJson q.filters),
    ("time_range", q.timeRange.toJson),
    ("fuzzy", .bool q.fuzzy),
    ("case_sensitive", .bool q.caseSensitive),
    ("aggregate_by", .list .text q.aggregateBy),
    ("limit", .orNull .nat q.limit)]

/-! ## Rules -/

def ParserRules.toJson (r : ParserRules) : Json :=
  .object [
    ("max_errors", .nat r.maxErrors),
    ("lenient_json", .bool r.lenientJson),
    ("extract_key_values", .bool r.extractKeyValues)]

def IndexRules.toJson (r : IndexRules) : Json :=
  .object [
    ("message_boost", .real r.messageBoost),
    ("level_boost", .real r.levelBoost),
    ("label_boost", .real r.labelBoost),
    ("fuzziness", .real r.fuzziness),
    ("max_edit_distance", .nat r.maxEditDistance),
    ("prefix_min_len", .nat r.prefixMinLength),
    ("max_examples", .nat r.maxExamples)]

def IngestRules.toJson (r : IngestRules) : Json :=
  .object [("chunk_lines", .nat r.chunkLines)]

def Config.toJson (c : Config) : Json :=
  .object [
    ("parser", c.parser.toJson),
    ("index", c.index.toJson),
    ("ingest", c.ingest.toJson)]

/-! ## Answers -/

def Failure.toJson (f : Failure) : Json :=
  .object [("line_number", .nat f.line), ("raw", .text f.raw), ("reason", .text f.reason)]

/-- A batch whose entries were given identifiers. -/
def Batch.toJson (b : Batch) (records : List Record) : Json :=
  .object [
    ("records", .list Record.toJson records),
    ("errors", .list Failure.toJson b.failures),
    ("dropped_errors", .nat b.droppedFailures),
    ("total_lines", .nat b.totalLines),
    ("file_name", .text b.fileName),
    ("file_size", .nat b.fileSize)]

def Report.toJson (r : Report) : Json :=
  .object [
    ("file_name", .text r.fileName),
    ("file_size", .nat r.fileSize),
    ("total_lines", .nat r.totalLines),
    ("indexed", .nat r.indexed),
    ("errors", .list Failure.toJson r.failures),
    ("dropped_errors", .nat r.droppedFailures)]

def Aggregations.toJson (a : Aggregations) : Json :=
  .dict (.dict .nat) a

/-- The answer to a search that took the given time in milliseconds. -/
def SearchResult.toJson (r : SearchResult) (elapsed : Binary64) : Json :=
  .object ([
    ("records", .list Record.toJson r.records),
    ("total", .nat r.total),
    ("elapsed_ms", .real elapsed)] ++
    Json.optional "aggregations" Aggregations.toJson r.aggregations)

def Index.Suggestion.toJson (s : Index.Suggestion) : Json :=
  .object [
    ("field", .text s.field),
    ("field_type", .text s.type.name),
    ("cardinality", .nat s.cardinality),
    ("examples", .list .text s.examples)]

def IndexStats.toJson (s : IndexStats) : Json :=
  .object [
    ("total_entries", .nat s.totalEntries),
    ("level_counts", .object (s.levelCounts.map fun (level, n) => (level.name, .nat n))),
    ("file_counts", .dict .nat s.fileCounts),
    ("earliest", .orNull .instant s.earliest),
    ("latest", .orNull .instant s.latest),
    ("distinct_terms", .nat s.distinctTerms),
    ("field_count", .nat s.fieldCount)]

/-- The summary of an index together with the reports of the files in it. -/
def summaryJson (s : IndexStats) (reports : List Report) : Json :=
  Json.sorted (.object [("stats", s.toJson), ("files", .list Report.toJson reports)])

end LogLens
