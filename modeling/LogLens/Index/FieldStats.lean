/-
Statistics of fields: which values occur under which name, and how often.

Values are counted under the texts they are shown as.
-/
import LogLens.Record
import LogLens.Time.Stamp

namespace LogLens
namespace Index

inductive FieldType where
  | text
  | number
  | date
  | bool
  deriving DecidableEq

def FieldType.name : FieldType → String
  | text => "string"
  | number => "number"
  | date => "date"
  | bool => "boolean"

/-- What is known about one field. -/
structure FieldStat where
  counts : Dict String Nat := Dict.empty
  /-- The value that was added last, unless its text has gone since. -/
  last : Option FieldValue := none
  deriving DecidableEq

namespace FieldStat

def add (s : FieldStat) (v : FieldValue) : FieldStat :=
  { counts := s.counts.increment v.display, last := some v }

/-- Takes one value away.  With the last value of a text, the remembered value of that text goes
too. -/
def remove (s : FieldStat) (v : FieldValue) : FieldStat :=
  match s.counts.get? v.display with
  | none => s
  | some n =>
    { counts := s.counts.decrement v.display
      last := if n = 1 then s.last.filter (·.display ≠ v.display) else s.last }

/-- The type that fits all texts: numbers, then timestamps, then truth values. -/
def typeOfTexts (texts : List String) (now : Instant) : FieldType :=
  if texts.all fun s => (parseNumber? s).isSome then .number
  else if texts.all fun s => (Stamp.parse? s now).isSome then .date
  else if texts.all fun s => s == "true" || s == "false" then .bool
  else .text

/-- The type of the remembered value, unless that is a text or gone. -/
def type (s : FieldStat) (now : Instant) : FieldType :=
  match s.last with
  | some (.number _) => .number
  | some (.bool _) => .bool
  | some (.date _) => .date
  | _ => typeOfTexts s.counts.keys now

/-- The most frequent texts; of two equally frequent ones the lesser comes first. -/
def examples (s : FieldStat) (limit : Nat) : List String :=
  ((s.counts.entries.mergeSort fun a b => b.2 ≤ a.2).take limit).map (·.1)

end FieldStat

/-- The values that an entry shows in statistics.  The attributes every entry has and the labels
that are set come first; a field of the same name as one of them does not count. -/
def observed (e : Entry) : List (String × FieldValue) :=
  let label (name : String) (value : Option String) : List (String × FieldValue) :=
    (value.map fun s => (name, FieldValue.text s)).toList
  let standard :=
    [("timestamp", .date e.timestamp), ("level", .text e.level.name), ("message", .text e.message),
      ("file", .text e.file)] ++
    label "source" e.source ++ label "service" e.service ++ label "host" e.host
  standard ++ e.fields.entries.filter fun f => !(standard.any (·.1 == f.1))

structure Suggestion where
  field : String
  type : FieldType
  /-- How many different texts the field has. -/
  cardinality : Nat
  examples : List String
  deriving DecidableEq

/-- What is known about all fields. -/
abbrev FieldStats := Dict String FieldStat

namespace FieldStats

def addEntry (stats : FieldStats) (e : Entry) : FieldStats :=
  (observed e).foldl (fun stats (name, v) =>
    Dict.alter stats name fun s => some ((s.getD {}).add v)) stats

/-- A field without values is dropped. -/
def removeValue (stats : FieldStats) (name : String) (v : FieldValue) : FieldStats :=
  Dict.alter stats name fun s => (s.map (·.remove v)).filter fun s => !s.counts.isEmpty

def removeEntry (stats : FieldStats) (e : Entry) : FieldStats :=
  (observed e).foldl (fun stats (name, v) => removeValue stats name v) stats

def cardinality? (stats : FieldStats) (field : String) : Option Nat :=
  (Dict.get? stats field).map (·.counts.size)

/-- What is known about every field, by name. -/
def suggestions (stats : FieldStats) (maxExamples : Nat) (now : Instant) : List Suggestion :=
  stats.entries.map fun (name, s) =>
    { field := name
      type := s.type now
      cardinality := s.counts.size
      examples := s.examples maxExamples }

end FieldStats
end Index
end LogLens
