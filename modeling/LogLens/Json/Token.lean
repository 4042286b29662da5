/-
JSON values from tokens.

Tokens are taken one by one by a machine that keeps the arrays and objects it is inside of, so
nesting needs no recursion and its depth is the height of a stack.  The strict and the relaxed
notation share the machine and differ in their tokens.
-/
import LogLens.Json
import LogLens.Dict

namespace LogLens
namespace Json

inductive Token where
  | openArray
  | closeArray
  | openObject
  | closeObject
  | colon
  | comma
  | text (s : String)
  /-- A text with an escape that denotes no character. -/
  | brokenText
  | number (n : JsonNumber)
  /-- A word without quotes: a constant, or the name of a member in the relaxed notation. -/
  | word (s : String)
  /-- A word without quotes that is written with escapes.  It is no constant. -/
  | escapedWord (s : String)

/-- What the notation allows. -/
structure Notation where
  /-- The deepest nesting of arrays and objects. -/
  maxDepth : Option Nat
  /-- Names of members may stand without quotes. -/
  bareNames : Bool
  /-- A comma may stand before a closing bracket. -/
  trailingComma : Bool
  /-- Members are sorted and the last one of a name counts, instead of all being kept as written. -/
  sortMembers : Bool := true
  /-- What a number beyond all finite ones stands for; such numbers may be refused. -/
  beyondFinite : Option Json
  /-- What a broken text stands for, and an object with a broken name; they may be refused. -/
  broken : Option Json := none
  /-- The values that words stand for. -/
  constant? : String → Option Json

/-- An array or object that is not closed yet. -/
inductive Frame where
  /-- The items so far, the last first. -/
  | array (items : List Json)
  /-- The members so far; there are none to speak of behind a broken name. -/
  | object (members : Option (List (String × Json)))
  /-- An object that waits for the value of the named member. -/
  | member (members : Option (List (String × Json))) (name : Option String)

/-- What has to come next. -/
inductive Expect where
  | value
  /-- A value, or the end of the innermost array. -/
  | item
  /-- The name of a member. -/
  | name
  /-- The name of a member, or the end of the innermost object. -/
  | nameOrClose
  | colon (name : Option String)
  /-- A comma, or the end of the innermost array or object. -/
  | comma
  | nothing (result : Json)

structure State where
  stack : List Frame
  expect : Expect

def start : State := ⟨[], .value⟩

/-- Puts a member among the others. -/
def insertMember (rules : Notation) (members : List (String × Json)) (name : String) (j : Json) :
    List (String × Json) :=
  if rules.sortMembers then Dict.alterEntries name (fun _ => some j) members
  else members ++ [(name, j)]

/-- Hands a finished value to the innermost array or object. -/
def deliver (rules : Notation) (j : Json) : List Frame → Option State
  | [] => some ⟨[], .nothing j⟩
  | .array items :: rest => some ⟨.array (j :: items) :: rest, .comma⟩
  | .member members name :: rest =>
    some ⟨.object (do return insertMember rules (← members) (← name) j) :: rest, .comma⟩
  | .object _ :: _ => none

def closeArray (rules : Notation) : List Frame → Option State
  | .array items :: rest => deliver rules (.array items.reverse) rest
  | _ => none

def closeObject (rules : Notation) : List Frame → Option State
  | .object (some members) :: rest => deliver rules (.object members) rest
  | .object none :: rest => rules.broken.bind (deliver rules · rest)
  | _ => none

def mayOpen (rules : Notation) (stack : List Frame) : Bool :=
  match rules.maxDepth with
  | none => true
  | some depth => stack.length < depth

/-- A number as a value, if the notation allows it. -/
def ofNumber? (rules : Notation) : JsonNumber → Option Json
  | .integer n => some (.number (.integer n))
  | .real x => if x.isFinite then some (.number (.real x)) else rules.beyondFinite

/-- A token where a value is expected. -/
def startValue (rules : Notation) (stack : List Frame) : Token → Option State
  | .openArray => if mayOpen rules stack then some ⟨.array [] :: stack, .item⟩ else none
  | .openObject =>
    if mayOpen rules stack then some ⟨.object (some []) :: stack, .nameOrClose⟩ else none
  | .text s => deliver rules (.text s) stack
  | .brokenText => rules.broken.bind (deliver rules · stack)
  | .number n => (ofNumber? rules n).bind (deliver rules · stack)
  | .word s => (rules.constant? s).bind (deliver rules · stack)
  | _ => none

/-- A token where the name of a member is expected. -/
def startMember (rules : Notation) (stack : List Frame) : Token → Option State
  | .text s => some ⟨stack, .colon (some s)⟩
  | .brokenText => if rules.broken.isSome then some ⟨stack, .colon none⟩ else none
  | .word s | .escapedWord s =>
    if rules.bareNames then some ⟨stack, .colon (some s)⟩ else none
  | _ => none

def afterColon (name : Option String) : List Frame → Option State
  | .object members :: rest => some ⟨.member members name :: rest, .value⟩
  | _ => none

/-- What a comma leads to. -/
def afterComma (rules : Notation) : List Frame → Option State
  | .array items :: rest =>
    some ⟨.array items :: rest, if rules.trailingComma then .item else .value⟩
  | .object members :: rest =>
    some ⟨.object members :: rest, if rules.trailingComma then .nameOrClose else .name⟩
  | _ => none

def step (rules : Notation) (s : State) (t : Token) : Option State :=
  match s.expect, t with
  | .value, t => startValue rules s.stack t
  | .item, .closeArray => closeArray rules s.stack
  | .item, t => startValue rules s.stack t
  | .name, t => startMember rules s.stack t
  | .nameOrClose, .closeObject => closeObject rules s.stack
  | .nameOrClose, t => startMember rules s.stack t
  | .colon name, .colon => afterColon name s.stack
  | .comma, .comma => afterComma rules s.stack
  | .comma, .closeArray => closeArray rules s.stack
  | .comma, .closeObject => closeObject rules s.stack
  | _, _ => none

/-- The value that a list of tokens denotes. -/
def ofTokens? (rules : Notation) (tokens : List Token) : Option Json :=
  match tokens.foldlM (step rules) start with
  | some ⟨_, .nothing j⟩ => some j
  | _ => none

end Json
end LogLens
