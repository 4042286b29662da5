/-
Filters on the values of records.
-/
import LogLens.Record

namespace LogLens
namespace Query

inductive Operator where
  | equals
  | contains
  | startsWith
  | endsWith
  | gt
  | gte
  | lt
  | lte
  | range
  /-- The field is there, whatever its value. -/
  | present
  deriving DecidableEq

namespace Operator

def all : List Operator :=
  [equals, contains, startsWith, endsWith, gt, gte, lt, lte, range, present]

def name : Operator → String
  | equals => "equals"
  | contains => "contains"
  | startsWith => "startsWith"
  | endsWith => "endsWith"
  | gt => "gt"
  | gte => "gte"
  | lt => "lt"
  | lte => "lte"
  | range => "range"
  | present => "exists"

def ofName? (s : String) : Option Operator := all.find? (·.name == s)

def symbol : Operator → String
  | equals => ":"
  | contains => "contains"
  | startsWith => "startsWith"
  | endsWith => "endsWith"
  | gt => ">"
  | gte => ">="
  | lt => "<"
  | lte => "<="
  | range => "range"
  | present => "exists"

/-- Operators that compare texts only. -/
def isTextual : Operator → Bool
  | contains | startsWith | endsWith => true
  | _ => false

end Operator

/-- What a filter compares with. -/
inductive Operand where
  | scalar (v : FieldValue)
  | range (low high : FieldValue)
  | absent
  deriving DecidableEq

namespace Operand

def scalar? : Operand → Option FieldValue
  | scalar v => some v
  | _ => none

def display : Operand → String
  | scalar v => v.display
  | range low high => "[" ++ low.display ++ " TO " ++ high.display ++ "]"
  | absent => ""

end Operand

structure Filter where
  field : String
  operator : Operator
  operand : Operand
  negate : Bool := false
  deriving DecidableEq

namespace Filter

/-- The same filter with its answer turned around. -/
def negated (f : Filter) : Filter := { f with negate := !f.negate }

def between (field : String) (low high : FieldValue) : Filter :=
  ⟨field, .range, .range low high, false⟩

def hasField (field : String) : Filter := ⟨field, .present, .absent, false⟩

/-- The filter as the query language writes it. -/
def display (f : Filter) : String :=
  (if f.negate then "NOT " else "") ++ f.field ++ ":" ++
    match f.operator with
    | .equals | .range => f.operand.display
    | .present => "*"
    | .contains => "*" ++ f.operand.display ++ "*"
    | .startsWith => f.operand.display ++ "*"
    | .endsWith => "*" ++ f.operand.display
    | op => op.symbol ++ f.operand.display

end Filter
end Query
end LogLens
