/-
Reading numbers.

A decimal number is a sign, digits with an optional point somewhere in or beside them, and an
optional exponent.  It denotes the nearest binary number.
-/
import LogLens.Number.Binary64
import LogLens.Text.Slice

namespace LogLens
namespace Reading

/-- The text of a decimal number, cut into its parts. -/
structure Parts where
  negative : Bool
  whole : List Char
  fraction : List Char
  exponent : Int

def Parts.value (p : Parts) : Binary64 :=
  Binary64.ofDecimal p.negative (digitsValue (p.whole ++ p.fraction))
    (p.exponent - p.fraction.length)

/-- A sign, if there is one, and the rest. -/
def sign : List Char → Bool × List Char
  | '-' :: rest => (true, rest)
  | '+' :: rest => (false, rest)
  | cs => (false, cs)

/-- An exponent up to the end of the text. -/
def exponent? (cs : List Char) : Option Int :=
  let (negative, digits) := sign cs
  if digits.isEmpty || !digits.all isDigit then none
  else some (if negative then -(digitsValue digits : Int) else digitsValue digits)

/-- The digits behind a point, and what follows them. -/
def fraction : List Char → List Char × List Char
  | '.' :: rest => (rest.takeWhile isDigit, rest.dropWhile isDigit)
  | cs => ([], cs)

/-- Cuts a decimal number up to the end of the text. -/
def parts? (cs : List Char) : Option Parts :=
  let (negative, body) := sign cs
  let whole := body.takeWhile isDigit
  let (part, rest) := fraction (body.dropWhile isDigit)
  if whole.isEmpty && part.isEmpty then none
  else match rest with
    | [] => some ⟨negative, whole, part, 0⟩
    | e :: power =>
      if e = 'e' ∨ e = 'E' then (exponent? power).map (⟨negative, whole, part, ·⟩) else none

/-- Reads a decimal number, or one of the words for infinity and NaN in any case. -/
def binary64? (cs : List Char) : Option Binary64 :=
  match parts? cs with
  | some p => some p.value
  | none =>
    let (negative, word) := sign cs
    if equalsIgnoringCase word "inf".toList || equalsIgnoringCase word "infinity".toList then
      some (Binary64.infinity negative)
    else if equalsIgnoringCase word "nan".toList then some .nan
    else none

end Reading

/-- The finite number that a text writes between white space, if it writes one.  The words for
infinity and NaN hold no digit and are not numbers here. -/
def parseNumber? (s : String) : Option Binary64 :=
  let cs := trim s.toList
  if cs.any isDigit then (Reading.binary64? cs).filter (·.isFinite) else none

end LogLens
