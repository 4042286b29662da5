/-
JSON values.

The members of an object stand in the order in which they are written.  Objects that were read have
their members sorted by name, each name once.
-/
import LogLens.Number.Notation

namespace LogLens

/-- Numbers without fraction and exponent are kept as integers, if 64 bits hold them. -/
inductive JsonNumber where
  | integer (n : Int)
  | real (x : Binary64)
  deriving DecidableEq

inductive Json where
  | null
  | bool (b : Bool)
  | number (n : JsonNumber)
  | text (s : String)
  | array (items : List Json)
  | object (members : List (String × Json))

def JsonNumber.toBinary64 : JsonNumber → Binary64
  | integer n => Binary64.ofInt n
  | real x => x

/-- A number prints without fraction exactly when it is kept as an integer. -/
def JsonNumber.print : JsonNumber → String
  | integer n => toString n
  | real x => Notation.json x

namespace Json

def nat (n : Nat) : Json := .number (.integer n)

def real (x : Binary64) : Json := .number (.real x)

/-- An integer beyond 64 bits, which no type takes.  It stands for what is well written and cannot
be represented. -/
def unreadable : Json := .number (.integer 0x10000000000000000)

/-- The first member with the given name. -/
def member? (members : List (String × Json)) (name : String) : Option Json :=
  (members.find? (·.1 == name)).map (·.2)

/-! ## Printing -/

def hexDigit (n : Nat) : Char :=
  if n < 10 then Char.ofNat ('0'.toNat + n) else Char.ofNat ('a'.toNat + (n - 10))

/-- A character inside a printed text.  Quotes, backslashes and controls are escaped. -/
def printChar (c : Char) : List Char :=
  if c = '"' then ['\\', '"']
  else if c = '\\' then ['\\', '\\']
  else if c = '\n' then ['\\', 'n']
  else if c = '\r' then ['\\', 'r']
  else if c = '\t' then ['\\', 't']
  else if c = '\x08' then ['\\', 'b']
  else if c = '\x0c' then ['\\', 'f']
  else if c.toNat < 0x20 then
    ['\\', 'u', '0', '0', hexDigit (c.toNat / 16), hexDigit (c.toNat % 16)]
  else [c]

def printText (s : String) : String :=
  String.ofList ('"' :: s.toList.flatMap printChar ++ ['"'])

mutual

/-- The value without white space. -/
def compact : Json → String
  | .null => "null"
  | .bool b => if b then "true" else "false"
  | .number n => n.print
  | .text s => printText s
  | .array items => "[" ++ compactItems items ++ "]"
  | .object members => "\x7b" ++ compactMembers members ++ "\x7d"

def compactItems : List Json → String
  | [] => ""
  | [j] => compact j
  | j :: rest => compact j ++ "," ++ compactItems rest

def compactMember : String × Json → String
  | (name, j) => printText name ++ ":" ++ compact j

def compactMembers : List (String × Json) → String
  | [] => ""
  | [m] => compactMember m
  | m :: rest => compactMember m ++ "," ++ compactMembers rest

end

/-- A line feed and the white space in front of what stands `depth` levels deep. -/
def newLine (depth : Nat) : String :=
  String.ofList ('\n' :: List.replicate (2 * depth) ' ')

mutual

/-- The value over several lines: every item and member has a line of its own, two columns further
in than what it belongs to. -/
def prettyAt (depth : Nat) : Json → String
  | .null => "null"
  | .bool b => if b then "true" else "false"
  | .number n => n.print
  | .text s => printText s
  | .array [] => "[]"
  | .array (j :: rest) => "[" ++ prettyItems (depth + 1) (j :: rest) ++ newLine depth ++ "]"
  | .object [] => "\x7b\x7d"
  | .object (m :: rest) =>
    "\x7b" ++ prettyMembers (depth + 1) (m :: rest) ++ newLine depth ++ "\x7d"

def prettyItems (depth : Nat) : List Json → String
  | [] => ""
  | [j] => newLine depth ++ prettyAt depth j
  | j :: rest => newLine depth ++ prettyAt depth j ++ "," ++ prettyItems depth rest

def prettyMember (depth : Nat) : String × Json → String
  | (name, j) => printText name ++ ": " ++ prettyAt depth j

def prettyMembers (depth : Nat) : List (String × Json) → String
  | [] => ""
  | [m] => newLine depth ++ prettyMember depth m
  | m :: rest => newLine depth ++ prettyMember depth m ++ "," ++ prettyMembers depth rest

end

def pretty (j : Json) : String := prettyAt 0 j

end Json
end LogLens
