/-
Log records and the typed values they carry.

An entry is what one line of a log says; a record is an entry that was given an identifier.  The
attributes every entry has, the labels it may have and the fields of its own are all found under
one space of names.
-/
import LogLens.Dict
import LogLens.Level
import LogLens.Time.Written
import LogLens.Number.Notation
import LogLens.Number.Reading

namespace LogLens

/-! ## Values -/

/-- A typed value of a field. -/
inductive FieldValue where
  | number (x : Binary64)
  | bool (b : Bool)
  | date (t : Instant)
  | text (s : String)
  deriving DecidableEq

namespace FieldValue

/-- The text under which a value is shown, counted and compared. -/
def display : FieldValue → String
  | number x => Notation.plain x
  | bool b => if b then "true" else "false"
  | date t => t.toMillisText
  | text s => s

/-- The value as a number: dates count milliseconds since 1970, texts are read. -/
def number? : FieldValue → Option Binary64
  | number x => some x
  | date t => some (Binary64.ofInt t.millis)
  | text s => parseNumber? s
  | bool _ => none

def text? : FieldValue → Option String
  | text s => some s
  | _ => none

end FieldValue

/-! ## Entries and records -/

/-- What one line of a log says. -/
structure Entry where
  timestamp : Instant
  level : Level
  message : String
  /-- The name of the file the line comes from. -/
  file : String
  /-- The line as it stands in the file. -/
  raw : String
  fields : Dict String FieldValue := Dict.empty
  source : Option String := none
  service : Option String := none
  host : Option String := none
  /-- The number of the line, counted from 1. -/
  line : Option Nat := none
  deriving DecidableEq

/-- Identifiers are numbers of 128 bits. -/
abbrev RecordId := Fin 0x100000000000000000000000000000000

instance : Key RecordId where
  lt a b := a < b
  decide_lt a b := inferInstanceAs (Decidable (a < b))
  irrefl := Fin.lt_irrefl
  trans := Fin.lt_trans
  eq_of_not_lt h h' := Fin.le_antisymm (Fin.not_lt.mp h') (Fin.not_lt.mp h)

structure Record extends Entry where
  id : RecordId
  deriving DecidableEq

namespace Entry

/-- A label as a value; a field of the same name stands in for a label that is not set. -/
def label (e : Entry) (value : Option String) (name : String) : Option FieldValue :=
  match value with
  | some s => some (.text s)
  | none => e.fields.get? name

/-- The value under a name. -/
def field? (e : Entry) (name : String) : Option FieldValue :=
  match name with
  | "timestamp" => some (.date e.timestamp)
  | "level" => some (.text e.level.name)
  | "message" => some (.text e.message)
  | "file" => some (.text e.file)
  | "source" => e.label e.source name
  | "service" => e.label e.service name
  | "host" => e.label e.host name
  | "line" => e.line.map fun n => .number (Binary64.ofNat n)
  | _ => e.fields.get? name

end Entry
end LogLens
