/-
Reading TOML documents.

A document is a sequence of statements, each on a line of its own: headers of tables and
assignments.  Only arrays, tables in braces and long texts reach over several lines.
-/
import LogLens.Toml.Scalar
import LogLens.Toml.Table

namespace LogLens
namespace Toml

/-! ## Gaps -/

/-- What follows white space, line ends and comments; `comment` says that a comment is open. -/
def afterGap? (comment : Bool) : List Char → Option (List Char)
  | [] => some []
  | c :: cs =>
    if comment then
      if c = '\n' then afterGap? false cs
      else if isControl c then none
      else afterGap? true cs
    else if c = '#' then afterGap? true cs
    else if isSpace c ∨ c = '\n' then afterGap? false cs
    else some (c :: cs)

/-- What follows the end of a statement, which is the end of its line. -/
def afterLine? (cs : List Char) : Option (List Char) :=
  match cs.dropWhile isSpace with
  | [] => some []
  | '\n' :: rest => some rest
  | '#' :: rest => afterGap? true rest
  | _ => none

/-! ## Values -/

/-- How deep arrays and tables in braces may stand inside of each other. -/
def maxDepth : Nat := 80

mutual

/-- A value, and the rest; `depth` more levels may be opened.  Of two steps at least one takes a
character, so twice as many as there are characters are enough. -/
def value? : Nat → Nat → List Char → Option (Json × List Char)
  | 0, _, _ => none
  | fuel + 1, depth, cs =>
    match cs, depth with
    | '"' :: _, _ => (text? basic cs).map fun (s, rest) => (.text s, rest)
    | '\'' :: _, _ => (text? literal cs).map fun (s, rest) => (.text s, rest)
    | '[' :: _, 0 => none
    | '[' :: rest, depth + 1 => (items? fuel depth rest).map fun (l, rest) => (.array l, rest)
    | '\x7b' :: _, 0 => none
    | '\x7b' :: rest, depth + 1 => do
      let (l, rest) ← members? fuel depth rest
      return (← ofStatements? l, rest)
    | _, _ => scalar? cs

/-- The items of an array up to its closing bracket, and the rest. -/
def items? : Nat → Nat → List Char → Option (List Json × List Char)
  | 0, _, _ => none
  | fuel + 1, depth, cs => do
    match ← afterGap? false cs with
    | ']' :: rest => return ([], rest)
    | cs =>
      let (j, rest) ← value? fuel depth cs
      match ← afterGap? false rest with
      | ']' :: rest => return ([j], rest)
      | ',' :: rest =>
        let (l, rest) ← items? fuel depth rest
        return (j :: l, rest)
      | _ => none

/-- The assignments of a table up to its closing brace, and the rest. -/
def members? : Nat → Nat → List Char → Option (List Statement × List Char)
  | 0, _, _ => none
  | fuel + 1, depth, cs => do
    match ← afterGap? false cs with
    | '\x7d' :: rest => return ([], rest)
    | cs =>
      let (s, rest) ← assignment? fuel depth true cs
      match ← afterGap? false rest with
      | '\x7d' :: rest => return ([s], rest)
      | ',' :: rest =>
        let (l, rest) ← members? fuel depth rest
        return (s :: l, rest)
      | _ => none

/-- A key, an equals sign and a value, and the rest.  In braces, line ends and comments may stand
around the equals sign. -/
def assignment? : Nat → Nat → Bool → List Char → Option (Statement × List Char)
  | 0, _, _, _ => none
  | fuel + 1, depth, braced, cs => do
    let gap (cs : List Char) := if braced then afterGap? false cs else some (cs.dropWhile isSpace)
    let (key, rest) ← key? cs
    let (j, rest) ← value? fuel depth (← gap (← afterPrefix? ['='] (← gap rest)))
    return (.assign key j, rest)

end

/-! ## Statements -/

/-- A header behind its opening brackets, and the rest behind the closing ones. -/
def header? (closing : List Char) (cs : List Char) : Option (Key × List Char) := do
  let (key, rest) ← key? cs
  return (key, ← afterPrefix? closing rest)

/-- The statement at the front of a text, and the rest. -/
def statement? : List Char → Option (Statement × List Char)
  | '[' :: '[' :: rest => (header? [']', ']'] rest).map fun (key, rest) => (.element key, rest)
  | '[' :: rest => (header? [']'] rest).map fun (key, rest) => (.table key, rest)
  | cs => assignment? (2 * cs.length + 2) maxDepth false cs

/-- All statements.  Each takes at least one character. -/
def statements? : Nat → List Char → Option (List Statement)
  | 0, _ => none
  | fuel + 1, cs => do
    match ← afterGap? false cs with
    | [] => return []
    | cs =>
      let (s, rest) ← statement? cs
      return s :: (← statements? fuel (← afterLine? rest))

/-- The text without a mark of the byte order, and with single characters for line ends. -/
def normalized (s : String) : List Char :=
  replacePair '\r' '\n' '\n' (match s.toList with
    | '\uFEFF' :: rest => rest
    | cs => cs)

/-- Reads a TOML document as an object.  Dates and times are taken for empty objects. -/
def parse? (s : String) : Option Json :=
  let cs := normalized s
  (statements? (cs.length + 1) cs).bind ofStatements?

end Toml
end LogLens
