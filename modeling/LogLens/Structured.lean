/-
Structured lines: entries written as JSON objects.

Programs name the same things differently, so each attribute is looked up under a list of names.
The members that gave time, level and message are used up; every other member becomes a field.
-/
import LogLens.Json.Refusal
import LogLens.Json.Relaxed
import LogLens.Record
import LogLens.Time.Stamp

namespace LogLens
namespace Structured

abbrev Members := List (String × Json)

/-! ## Names, in the order they are tried -/

def timestampNames : List String := ["@timestamp", "timestamp", "ts", "time", "datetime"]
def levelNames : List String := ["level", "severity", "priority", "loglevel"]
def messageNames : List String := ["message", "msg", "text", "content", "description"]
def sourceNames : List String := ["source", "logger", "component"]
def serviceNames : List String := ["service", "service_name", "app"]
def hostNames : List String := ["host", "hostname"]

/-- The first of the names whose member `f` accepts, with what `f` makes of it. -/
def firstMember? {α : Type} (members : Members) (names : List String) (f : Json → Option α) :
    Option (String × α) :=
  names.findSome? fun name => ((Json.member? members name).bind f).map (name, ·)

/-! ## Attributes -/

def timestampOf (reference : Instant) : Json → Except Stamp.OutOfRange (Option Instant)
  | .text s => Stamp.parse s reference
  | .number n => .ok (Stamp.ofEpoch? n.toBinary64)
  | _ => .ok none

/-- The first member that says the time.  It fails when a text before it is a time that cannot be
placed. -/
def timestampMember (members : Members) (reference : Instant) :
    Except Stamp.OutOfRange (Option (String × Instant)) :=
  timestampNames.findSomeM? fun name => do
    match Json.member? members name with
    | none => return none
    | some j => return (← timestampOf reference j).map (name, ·)

def levelOf : Json → Option Level
  | .text s => some (Level.ofWord s)
  | .number n => some (Level.ofNumber n.toBinary64)
  | _ => none

/-- A text as it is, and any other value but `null` as its JSON text. -/
def messageOf : Json → Option String
  | .text s => some s
  | .null => none
  | j => some j.compact

def labelOf : Json → Option String
  | .text s => if s.isEmpty then none else some s
  | .number n => some n.print
  | _ => none

/-- Arrays and objects are kept as their JSON text; `null` makes no field. -/
def fieldOf : Json → Option FieldValue
  | .null => none
  | .bool b => some (.bool b)
  | .number n => some (.number n.toBinary64)
  | .text s => some (.text s)
  | j => some (.text j.compact)

/-- The fields of an object, without the members that are used up. -/
def fieldsOf (members : Members) (used : List String) : Dict String FieldValue :=
  Dict.ofList (members.filterMap fun (name, j) =>
    if used.contains name then none else (fieldOf j).map (name, ·))

/-- The entry that an object says.  Without a time it is the reference, without a level `info`, and
without a message the whole object. -/
def entry (members : Members) (raw file : String) (reference : Instant) (line : Option Nat) :
    Except Stamp.OutOfRange Entry := do
  let timestamp ← timestampMember members reference
  let level := firstMember? members levelNames levelOf
  let message := firstMember? members messageNames messageOf
  let label names := (firstMember? members names labelOf).map (·.2)
  return {
    timestamp := (timestamp.map (·.2)).getD reference
    level := (level.map (·.2)).getD .info
    message := (message.map (·.2)).getD (Json.object members).compact
    file, raw, line
    fields := fieldsOf members
      ((timestamp.map (·.1)).toList ++ (level.map (·.1)).toList ++ (message.map (·.1)).toList)
    source := label sourceNames
    service := label serviceNames
    host := label hostNames }

/-! ## Decoding a line -/

/-- Why a structured line or array element makes no entry. -/
inductive Fault where
  | invalidJson (why : Option Json.Refusal)
  | invalidRelaxedJson
  | notAnObject (found : Json)
  | elementNotAnObject

def kindName : Json → String
  | .null => "null"
  | .bool _ => "a boolean"
  | .number _ => "a number"
  | .text _ => "a string"
  | .array _ => "an array"
  | .object _ => "an object"

def Fault.message : Fault → String
  | invalidJson (some why) => "Invalid JSON: " ++ why.message
  | invalidJson none => "Invalid JSON"
  | invalidRelaxedJson => "Invalid JSON5"
  | notAnObject found => "Expected a JSON object, found " ++ kindName found
  | elementNotAnObject => "Array element is not a JSON object"

/-- Whether a line without white space at its ends is to be read as an object. -/
def looksStructured (cs : List Char) : Bool :=
  cs.head? == some '\x7b' && cs.getLast? == some '\x7d'

/-- The members of the object that a text writes. -/
def decode (text : String) (lenient : Bool) : Except Fault Members :=
  match if lenient then Json.parseRelaxed? text else Json.parse? text with
  | none =>
    .error (if lenient then .invalidRelaxedJson else .invalidJson (Json.refusal? text))
  | some (.object members) => .ok members
  | some j => .error (.notAnObject j)

end Structured
end LogLens
