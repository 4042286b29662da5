/-
Reports for people.
-/
import LogLens.Ingest
import LogLens.Report.Style
import LogLens.Report.Table

namespace LogLens
namespace Report

/-! ## Parts of reports -/

/-- How many characters of a message are shown. -/
def messageWidth : Nat := 100

/-- How many failures are shown, and how many characters of their lines. -/
def failuresShown : Nat := 10
def failureWidth : Nat := 60

/-- The text cut to `limit` characters, of which the last three are dots if something is left
out. -/
def truncate (s : String) (limit : Nat) : String :=
  if s.length ≤ limit then s else String.ofList (s.toList.take (limit - 3)) ++ "..."

def plural (count : Nat) (one many : String) : String :=
  toString count ++ " " ++ if count = 1 then one else many

/-- Line feeds as the escape that stands for them. -/
def onOneLine (s : String) : String :=
  String.ofList (s.toList.flatMap fun c => if c = '\n' then ['\\', 'n'] else [c])

def line (s : String) : String := s ++ "\n"

def tableLines (headers : List String) (rows : List (List String)) : String :=
  line (Table.draw ⟨headers, rows⟩)

/-- Nanoseconds as milliseconds. -/
def millisOf (nanos : Nat) : Binary64 :=
  let seconds := (Binary64.ofNat (nanos / nanosPerSecond)).add
    ((Binary64.ofNat (nanos % nanosPerSecond)).div (Binary64.ofNat nanosPerSecond))
  seconds.mul (Binary64.ofNat 1000)

/-- The part that a count is of a total, in percent. -/
def percent (count total : Nat) : Binary64 :=
  if total = 0 then Binary64.zero
  else ((Binary64.ofNat count).mul (Binary64.ofNat 100)).div (Binary64.ofNat total)

/-! ## Searches -/

def origin (e : Entry) : String :=
  match e.line with
  | some n => e.file ++ ":" ++ toString n
  | none => e.file

def recordRow (r : Record) : List String :=
  [r.timestamp.toMillisText, r.level.name, origin r.toEntry,
    truncate (onOneLine r.message) messageWidth]

/-- The most frequent values first. -/
def byCount (counts : Dict String Nat) : List (String × Nat) :=
  counts.entries.mergeSort fun a b => b.2 ≤ a.2

def aggregation (color : Bool) (field : String) (counts : Dict String Nat) : String :=
  line ("\n" ++ paint color .bold "COUNT BY" ++ " " ++ paint color .cyan field) ++
    tableLines ["Value", "Count"] ((byCount counts).map fun (v, n) => [v, toString n])

/-- The answer to a search that took the given time. -/
def search (color : Bool) (elapsed : Nat) (r : SearchResult) : String :=
  let shown :=
    if r.records.length < r.total then " (showing " ++ toString r.records.length ++ ")" else ""
  line (paint color .bold "SEARCH" ++ " " ++
    paint color .boldGreen (plural r.total "match" "matches") ++ shown ++ " in " ++
    Notation.fixed 2 (millisOf elapsed) ++ " ms") ++
  if r.total = 0 then line "No matching log entries found."
  else
    (if r.records.isEmpty then ""
      else tableLines ["Timestamp", "Level", "Origin", "Message"] (r.records.map recordRow)) ++
    match r.aggregations with
    | none => ""
    | some aggregations =>
      joinWith "" (aggregations.entries.map fun (field, counts) => aggregation color field counts)

/-! ## Fields -/

def fields (color : Bool) (suggestions : List Index.Suggestion) : String :=
  line (paint color .bold "FIELDS" ++ " " ++ plural suggestions.length "field" "fields") ++
  if suggestions.isEmpty then ""
  else tableLines ["Field", "Type", "Distinct", "Examples"] (suggestions.map fun s =>
    [s.field, s.type.name, toString s.cardinality,
      truncate (joinWith ", " s.examples) messageWidth])

/-! ## Summaries -/

def bar (color : Bool) : String := line (paint color .brightWhite (Table.repeated "=" 60))

def levelTable (color : Bool) (s : IndexStats) : String :=
  if s.levelCounts.isEmpty then ""
  else
    line ("\n" ++ paint color .bold "LEVELS") ++
      tableLines ["Level", "Count", "Percent"] (s.levelCounts.reverse.map fun (level, n) =>
        [level.name, toString n, Notation.fixed 1 (percent n s.totalEntries) ++ "%"])

def fileTable (color : Bool) (s : IndexStats) : String :=
  if s.fileCounts.isEmpty then ""
  else
    line ("\n" ++ paint color .bold "FILES") ++
      tableLines ["File", "Count"] (s.fileCounts.entries.map fun (file, n) => [file, toString n])

def stats (color : Bool) (s : IndexStats) : String :=
  bar color ++ line (paint color .boldBrightWhite "LOG INDEX SUMMARY") ++ bar color ++
  line ("Total entries:  " ++ paint color .boldGreen (toString s.totalEntries)) ++
  line ("Indexed terms:  " ++ toString s.distinctTerms) ++
  line ("Known fields:   " ++ toString s.fieldCount) ++
  (match s.earliest, s.latest with
    | some earliest, some latest =>
      line ("Earliest:       " ++ paint color .cyan earliest.toMillisText) ++
        line ("Latest:         " ++ paint color .cyan latest.toMillisText)
    | _, _ => "") ++
  levelTable color s ++ fileTable color s

/-! ## Ingestion -/

def failureRow (f : Failure) : List String :=
  [toString f.line, f.reason, truncate (trimText f.raw) failureWidth]

def ingest (color : Bool) (r : LogLens.Report) : String :=
  line (paint color .bold "PARSE" ++ " " ++ paint color .cyan r.fileName) ++
  line ("Size:     " ++ toString r.fileSize ++ " bytes") ++
  line ("Lines:    " ++ toString r.totalLines) ++
  line ("Records:  " ++ paint color .boldGreen (toString r.indexed)) ++
  if r.errorCount = 0 then line "Errors:   0"
  else
    line ("Errors:   " ++ paint color .boldRed (toString r.errorCount)) ++
    (if r.droppedFailures = 0 then ""
      else line ("          (" ++ toString r.droppedFailures ++
        " not recorded past the error limit)")) ++
    tableLines ["Line", "Reason", "Content"] ((r.failures.take failuresShown).map failureRow) ++
    if failuresShown < r.failures.length then
      line ("... +" ++ toString (r.failures.length - failuresShown) ++ " more")
    else ""

end Report
end LogLens
