/-
Pairs `key=value` in messages.

A pair stands at the start of a message or behind white space.  Its value is quoted, with
backslashes before quotes and backslashes in it, or runs up to the next white space or quote.
-/
import LogLens.Record

namespace LogLens
namespace KeyValue

/-! ## Finding pairs -/

/-- A value as it was written. -/
inductive Written where
  | quoted (inside : List Char)
  | bare (text : List Char)

def isKeyStart (c : Char) : Bool := c.isAlpha || c == '_'

def isKeyChar (c : Char) : Bool := isWordChar c || c == '.' || c == '-'

/-- What stands before the closing quote, as written, and what follows it.  A backslash takes the
next character with it, which may not be a line feed. -/
def closeQuote? : List Char → Option (List Char × List Char)
  | [] => none
  | '"' :: rest => some ([], rest)
  | '\\' :: c :: rest =>
    if c = '\n' then none
    else (closeQuote? rest).map fun (inside, rest) => ('\\' :: c :: inside, rest)
  | c :: rest =>
    if c = '\\' then none
    else (closeQuote? rest).map fun (inside, rest) => (c :: inside, rest)

def isBareChar (c : Char) : Bool := !isBlank c && c != '"'

def value? (cs : List Char) : Option (Written × List Char) :=
  match cs with
  | '"' :: rest => (closeQuote? rest).map fun (inside, rest) => (.quoted inside, rest)
  | _ =>
    let text := cs.takeWhile isBareChar
    if text.isEmpty then none else some (.bare text, cs.dropWhile isBareChar)

structure Pair where
  key : List Char
  value : Written

/-- A pair at the start of the text, and the rest. -/
def pair? (cs : List Char) : Option (Pair × List Char) := do
  let c ← cs.head?
  if !isKeyStart c then none
  let key := cs.takeWhile isKeyChar
  let rest ← afterPrefix? ['='] (cs.dropWhile isKeyChar)
  let (value, rest) ← value? rest
  return (⟨key, value⟩, rest)

/-- The pairs from left to right; `skip` characters belong to the last one. -/
def pairsFrom (atStart : Bool) : Nat → List Char → List Pair
  | _, [] => []
  | skip + 1, _ :: cs => pairsFrom false skip cs
  | 0, c :: cs =>
    let here := if atStart then pair? (c :: cs) else none
    match here.or (if isBlank c then pair? cs else none) with
    | some (pair, rest) => pair :: pairsFrom false (cs.length - rest.length) cs
    | none => pairsFrom false 0 cs

/-! ## Typed values -/

/-- Takes the backslashes before quotes away, then those before backslashes. -/
def unescape (inside : List Char) : List Char :=
  replacePair '\\' '\\' '\\' (replacePair '\\' '"' '"' inside)

/-- Quoted values are texts; bare ones are numbers, truth values or texts. -/
def Written.value : Written → FieldValue
  | quoted inside => .text (String.ofList (unescape inside))
  | bare cs =>
    match parseNumber? (String.ofList cs) with
    | some x => .number x
    | none =>
      if equalsIgnoringCase cs "true".toList then .bool true
      else if equalsIgnoringCase cs "false".toList then .bool false
      else .text (String.ofList cs)

/-- The fields a message holds; of pairs with one key the last counts. -/
def fieldsOf (message : String) : Dict String FieldValue :=
  Dict.ofList ((pairsFrom true 0 message.toList).map fun p =>
    (String.ofList p.key, p.value.value))

end KeyValue
end LogLens
