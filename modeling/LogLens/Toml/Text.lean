/-
Texts and keys of TOML documents.

A text stands in double quotes, with escapes, or in single quotes, without.  Three quotes of a kind
enclose a text of several lines.  Line ends are single line feeds here.
-/
import LogLens.Json.Reader

namespace LogLens
namespace Toml

/-! ## Characters -/

/-- Controls, which stand nowhere in a document.  The tab is none of them, and line feeds are
allowed for by themselves. -/
def isControl (c : Char) : Bool :=
  (c.toNat < 0x20 && c != '\t') || c.toNat == 0x7F

def isSpace (c : Char) : Bool := c == ' ' || c == '\t'

/-- The character with the code that the next `count` hexadecimal digits write. -/
def coded? (count : Nat) (cs : List Char) : Option Char := do
  let digits := cs.take count
  if digits.length < count then none
  let n ← Json.Reader.hexNumber? digits
  if n.isValidChar then some (Char.ofNat n) else none

/-- The character that a backslash and what follows it stand for, and how many characters follow. -/
def escape? : List Char → Option (Char × Nat)
  | [] => none
  | c :: cs =>
    match c with
    | 'b' => some ('\x08', 1)
    | 't' => some ('\t', 1)
    | 'n' => some ('\n', 1)
    | 'f' => some ('\x0c', 1)
    | 'r' => some ('\r', 1)
    | 'e' => some ('\x1b', 1)
    | '"' => some ('"', 1)
    | '\\' => some ('\\', 1)
    | 'x' => (coded? 2 cs).map (·, 3)
    | 'u' => (coded? 4 cs).map (·, 5)
    | 'U' => (coded? 8 cs).map (·, 9)
    | _ => none

/-! ## Texts -/

/-- A kind of text: the quote around it, and whether it has escapes. -/
structure Quoting where
  quote : Char
  escapes : Bool

def basic : Quoting := ⟨'"', true⟩

def literal : Quoting := ⟨'\'', false⟩

/-- A text of one line behind its opening quote, and the rest; `skip` characters belong to the last
escape. -/
def lineText? (q : Quoting) : Nat → List Char → Option (List Char × List Char)
  | _, [] => none
  | skip + 1, _ :: cs => lineText? q skip cs
  | 0, c :: cs =>
    if c = q.quote then some ([], cs)
    else if c = '\\' ∧ q.escapes then do
      let (e, taken) ← escape? cs
      let (text, rest) ← lineText? q taken cs
      return (e :: text, rest)
    else if isControl c then none
    else (lineText? q 0 cs).map fun (text, rest) => (c :: text, rest)

/-- How many characters a backslash at the end of a line passes over: the white space behind it,
which has to reach the next line. -/
def lineBreak? (cs : List Char) : Option Nat :=
  if (cs.dropWhile isSpace).head? == some '\n' then
    some (cs.takeWhile fun c => isSpace c || c == '\n').length
  else none

/-- A text of several lines behind its opening quotes, and the rest.  Up to two quotes may stand
right before the three that close it. -/
def linesText? (q : Quoting) : Nat → List Char → Option (List Char × List Char)
  | _, [] => none
  | skip + 1, _ :: cs => linesText? q skip cs
  | 0, c :: cs =>
    let quotes := ((c :: cs).takeWhile (· == q.quote)).length
    if 3 ≤ quotes then
      let inside := min 2 (quotes - 3)
      some (List.replicate inside q.quote, (c :: cs).drop (inside + 3))
    else if c = '\\' ∧ q.escapes then
      match lineBreak? cs with
      | some taken => linesText? q taken cs
      | none => do
        let (e, taken) ← escape? cs
        let (text, rest) ← linesText? q taken cs
        return (e :: text, rest)
    else if isControl c ∧ c ≠ '\n' then none
    else (linesText? q 0 cs).map fun (text, rest) => (c :: text, rest)

/-- A text from its first quote, and the rest.  A line feed right behind three quotes does not
count. -/
def text? (q : Quoting) (cs : List Char) : Option (String × List Char) := do
  let three := List.replicate 3 q.quote
  let (text, rest) ← match afterPrefix? three cs with
    | some ('\n' :: body) => linesText? q 0 body
    | some body => linesText? q 0 body
    | none => (afterPrefix? [q.quote] cs).bind (lineText? q 0)
  return (String.ofList text, rest)

/-! ## Keys -/

def isKeyChar (c : Char) : Bool := c.isAlphanum || c == '_' || c == '-'

/-- One name of a key, bare or as a text of one line, and the rest. -/
def name? (cs : List Char) : Option (String × List Char) :=
  let quoted (q : Quoting) (rest : List Char) : Option (String × List Char) :=
    (lineText? q 0 rest).map fun (text, rest) => (String.ofList text, rest)
  match cs with
  | '"' :: rest => quoted basic rest
  | '\'' :: rest => quoted literal rest
  | _ =>
    let name := cs.takeWhile isKeyChar
    if name.isEmpty then none else some (String.ofList name, cs.dropWhile isKeyChar)

/-- A key: where it leads, and the name there. -/
structure Key where
  path : List String
  name : String

/-- A key of at most `count` names with points between them, and the rest behind the white space
after it. -/
def namesOf? : Nat → List Char → Option (Key × List Char)
  | 0, _ => none
  | count + 1, cs => do
    let (name, rest) ← name? (cs.dropWhile isSpace)
    match rest.dropWhile isSpace with
    | '.' :: behind =>
      let (key, rest) ← namesOf? count behind
      return ({ key with path := name :: key.path }, rest)
    | rest => return (⟨[], name⟩, rest)

/-- How many names a key may have. -/
def maxNames : Nat := 80

/-- A key, and the rest behind the white space after it. -/
def key? (cs : List Char) : Option (Key × List Char) := namesOf? maxNames cs

end Toml
end LogLens
