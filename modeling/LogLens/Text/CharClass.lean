/-
Classes of characters that decide where texts are cut.

Every class covers all of Unicode; ASCII is answered without a table.  The classes of single
characters are those of Unicode 17.0, the classes that patterns ask for those of Unicode 16.0.
-/
import LogLens.Text.CharSet.Alphabetic
import LogLens.Text.CharSet.AlphabeticMark
import LogLens.Text.CharSet.DecimalDigit
import LogLens.Text.CharSet.Enclosed
import LogLens.Text.CharSet.OtherNumber
import LogLens.Text.CharSet.Recent
import LogLens.Text.CharSet.WordMark

namespace LogLens

/-- White space: what is trimmed from both ends of a line and separates the words of a query. -/
def isBlank (c : Char) : Bool :=
  let n := c.toNat
  (0x09 ≤ n && n ≤ 0x0D) || n == 0x20 || n == 0x85 || n == 0xA0 || n == 0x1680 ||
    (0x2000 ≤ n && n ≤ 0x200A) || n == 0x2028 || n == 0x2029 || n == 0x202F || n == 0x205F ||
    n == 0x3000

/-- An ASCII digit, the only kind of digit that numbers are read from. -/
def isDigit (c : Char) : Bool :=
  '0' ≤ c && c ≤ '9'

def isAlphabetic (c : Char) : Bool :=
  c.isAlpha || CharSet.alphabetic.contains c

/-- Letters and the numbers that are written with letters: what is alphabetic, but marks and
symbols. -/
def isLetter (c : Char) : Bool :=
  isAlphabetic c && !CharSet.alphabeticMark.contains c && !CharSet.enclosedLetter.contains c

/-- Letters and numbers of all kinds. -/
def isAlphanumeric (c : Char) : Bool :=
  isAlphabetic c || isDigit c || CharSet.decimalDigit.contains c || CharSet.otherNumber.contains c

/-- A decimal digit of any script, which a pattern accepts where it asks for a digit. -/
def isAnyDigit (c : Char) : Bool :=
  isDigit c || (CharSet.decimalDigit.contains c && !CharSet.recent.contains c)

/-- Characters that belong to a word where a pattern asks for one or looks for its edges. -/
def isWordChar (c : Char) : Bool :=
  c == '_' || c.isAlphanum ||
    ((CharSet.alphabetic.contains c || CharSet.decimalDigit.contains c ||
      CharSet.wordMark.contains c) && !CharSet.recent.contains c)

/-- The value of an ASCII digit. -/
def digitValue (c : Char) : Nat :=
  c.toNat - '0'.toNat

/-- The number that a run of ASCII digits writes. -/
def digitsValue (cs : List Char) : Nat :=
  cs.foldl (fun n c => 10 * n + digitValue c) 0

end LogLens
