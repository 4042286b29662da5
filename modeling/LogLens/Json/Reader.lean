/-
Reading JSON.

The notation is that of the standard: no comments, no words but the three constants, no nesting
deeper than 127.  Integers that 64 bits hold are kept; every other number is computed from its
digits as described at `approximate?`.
-/
import LogLens.Json.Token
import LogLens.Text.Slice

namespace LogLens
namespace Json
namespace Reader

/-! ## Numbers -/

/-- The largest unsigned number of 64 bits. -/
def maxWord : Nat := 18446744073709551615

/-- The least signed number of 64 bits. -/
def minSigned : Int := -9223372036854775808

/-- The digits that 64 bits hold together with those before them, and the others. -/
def significantDigits (start : Nat) : List Char → Nat × List Char
  | [] => (start, [])
  | c :: cs =>
    if 10 * start + digitValue c ≤ maxWord then significantDigits (10 * start + digitValue c) cs
    else (start, c :: cs)

/-- Divides by `10 ^ 308` until the exponent that is left is one of a power of ten that can be
represented, and then by that power. -/
def scaleDown (x : Binary64) : Nat → Nat → Binary64
  | 0, _ => x
  | fuel + 1, exponent =>
    if exponent ≤ 308 then x.div (Binary64.ofDecimal false 1 exponent)
    else if x.numEq Binary64.zero then x
    else scaleDown (x.div (Binary64.ofDecimal false 1 308)) fuel (exponent - 308)

/-- `significand * 10 ^ exponent`, computed with one rounding for the significand and one for the
scaling.  Values that round to infinity are refused. -/
def approximate? (negative : Bool) (significand : Nat) (exponent : Int) : Option Binary64 :=
  let x := Binary64.ofNat significand
  let signed (y : Binary64) : Option Binary64 :=
    if y.isFinite then some (if negative then y.neg else y) else none
  if 0 ≤ exponent then
    if exponent ≤ 308 then signed (x.mul (Binary64.ofDecimal false 1 exponent))
    else if significand = 0 then signed x
    else none
  else signed (scaleDown x 4 exponent.natAbs)

/-- The largest exponent that is computed with. -/
def maxExponent : Nat := 2147483647

/-- A number of given digits and exponent that is not an integer.  Its significand takes as many
digits of the whole part as 64 bits hold, and then of the fraction.  An exponent too large to
compute with is refused when it is positive, and makes zero when it is negative. -/
def real? (negative : Bool) (whole part : List Char) (exponent : Option (Bool × List Char)) :
    Option Binary64 :=
  let (n, extra) := significantDigits 0 whole
  let (n, dropped) := significantDigits n part
  let places : Int := extra.length - (part.length - dropped.length : Nat)
  match exponent with
  | none => approximate? negative n places
  | some (down, digits) =>
    let e := digitsValue digits
    if maxExponent < e then
      if n ≠ 0 ∧ ¬ down then none else some (Binary64.signedZero negative)
    else
      let total := if down then places - e else places + e
      approximate? negative n (max (-2147483648) (min maxExponent total))

/-- The exponent behind a number: whether it is negative, its digits, and the rest. -/
def exponent? : List Char → Option (Option (Bool × List Char) × List Char)
  | [] => some (none, [])
  | e :: rest =>
    if e = 'e' ∨ e = 'E' then
      let (down, body) := match rest with
        | '-' :: body => (true, body)
        | '+' :: body => (false, body)
        | body => (false, body)
      let digits := body.takeWhile isDigit
      if digits.isEmpty then none else some (some (down, digits), body.dropWhile isDigit)
    else some (none, e :: rest)

/-- A number and the rest, behind its sign.  Infinity stands for a number that rounds to it. -/
def unsigned? (negative : Bool) (cs : List Char) : Option (JsonNumber × List Char) := do
  let whole := cs.takeWhile isDigit
  let rest := cs.dropWhile isDigit
  if whole.isEmpty || (whole.head? == some '0' && whole.length ≠ 1) then none
  let (part, rest) ← match rest with
    | '.' :: behind =>
      let part := behind.takeWhile isDigit
      if part.isEmpty then none else some (some part, behind.dropWhile isDigit)
    | _ => some (none, rest)
  let (exponent, rest) ← exponent? rest
  let n := digitsValue whole
  if part.isNone && exponent.isNone && n ≤ maxWord then
    if ¬ negative then return (.integer n, rest)
    if n ≠ 0 ∧ minSigned ≤ -(n : Int) then return (.integer (-(n : Int)), rest)
  let x := (real? negative whole (part.getD []) exponent).getD (Binary64.infinity negative)
  return (.real x, rest)

/-! ## Texts -/

def hexValue? (c : Char) : Option Nat :=
  if isDigit c then some (digitValue c)
  else if 'a' ≤ c ∧ c ≤ 'f' then some (c.toNat - 'a'.toNat + 10)
  else if 'A' ≤ c ∧ c ≤ 'F' then some (c.toNat - 'A'.toNat + 10)
  else none

/-- The number that hexadecimal digits write. -/
def hexNumber? (cs : List Char) : Option Nat :=
  cs.foldlM (fun n c => (hexValue? c).map (16 * n + ·)) 0

/-- The characters of a text as they are escaped one by one. -/
inductive Piece where
  | char (c : Char)
  /-- Half of a character, as `\u` writes those beyond sixteen bits. -/
  | unit (n : Nat)

/-- Joins halves to characters; a half without its other half is refused. -/
def joinUnits? : List Piece → Option (List Char)
  | [] => some []
  | .char c :: rest => (joinUnits? rest).map (c :: ·)
  | .unit high :: .unit low :: rest =>
    if 0xD800 ≤ high ∧ high < 0xDC00 ∧ 0xDC00 ≤ low ∧ low < 0xE000 then
      (joinUnits? rest).map (Char.ofNat (0x10000 + (high - 0xD800) * 0x400 + (low - 0xDC00)) :: ·)
    else none
  | .unit _ :: _ => none

/-- What `\u` and four digits denote. -/
def pieceOf (n : Nat) : Piece :=
  if 0xD800 ≤ n ∧ n < 0xE000 then .unit n else .char (Char.ofNat n)

/-- The character that a backslash and `c` stand for. -/
def escaped? (c : Char) : Option Char :=
  match c with
  | '"' => some '"'
  | '\\' => some '\\'
  | '/' => some '/'
  | 'b' => some '\x08'
  | 'f' => some '\x0c'
  | 'n' => some '\n'
  | 'r' => some '\r'
  | 't' => some '\t'
  | _ => none

/-- The pieces of a text up to its closing quote, and the rest. -/
def pieces? : List Char → Option (List Piece × List Char)
  | [] => none
  | '"' :: rest => some ([], rest)
  | '\\' :: 'u' :: a :: b :: c :: d :: rest => do
    let n ← hexNumber? [a, b, c, d]
    let (ps, rest) ← pieces? rest
    return (pieceOf n :: ps, rest)
  | '\\' :: c :: rest => do
    let e ← escaped? c
    let (ps, rest) ← pieces? rest
    return (.char e :: ps, rest)
  | c :: rest =>
    if c = '\\' ∨ c.toNat < 0x20 then none
    else (pieces? rest).map fun (ps, rest) => (.char c :: ps, rest)

/-- The text that pieces make. -/
def textOf (ps : List Piece) : Token :=
  match joinUnits? ps with
  | some cs => .text (String.ofList cs)
  | none => .brokenText

/-! ## Tokens -/

def isSpace (c : Char) : Bool := c == ' ' || c == '\t' || c == '\n' || c == '\r'

def isLower (c : Char) : Bool := 'a' ≤ c && c ≤ 'z'

/-- The first token of a text that begins with neither space nor end, and the rest. -/
def token? : List Char → Option (Token × List Char)
  | [] => none
  | '[' :: rest => some (.openArray, rest)
  | ']' :: rest => some (.closeArray, rest)
  | '\x7b' :: rest => some (.openObject, rest)
  | '\x7d' :: rest => some (.closeObject, rest)
  | ':' :: rest => some (.colon, rest)
  | ',' :: rest => some (.comma, rest)
  | '"' :: rest => (pieces? rest).map fun (ps, rest) => (textOf ps, rest)
  | '-' :: rest => (unsigned? true rest).map fun (n, rest) => (.number n, rest)
  | c :: rest =>
    if isLower c then
      some (.word (String.ofList ((c :: rest).takeWhile isLower)), (c :: rest).dropWhile isLower)
    else (unsigned? false (c :: rest)).map fun (n, rest) => (.number n, rest)

/-- The tokens of a text.  Every token takes at least one character, so as many steps as there are
characters are enough. -/
def tokens? : Nat → List Char → Option (List Token)
  | _, [] => some []
  | 0, _ :: _ => none
  | fuel + 1, c :: cs =>
    if isSpace c then tokens? fuel cs
    else do
      let (t, rest) ← token? (c :: cs)
      return t :: (← tokens? fuel rest)

def constant? : String → Option Json
  | "null" => some .null
  | "true" => some (.bool true)
  | "false" => some (.bool false)
  | _ => none

def rules : Notation where
  maxDepth := some 127
  bareNames := false
  trailingComma := false
  beyondFinite := none
  constant? := constant?

/-- The same notation with the members of objects kept as they are written, repeated ones included.
Nesting and numbers are not bounded and texts may be broken, because what cannot be represented may
be of no interest. -/
def asWritten : Notation :=
  { rules with
    maxDepth := none
    sortMembers := false
    beyondFinite := some unreadable
    broken := some unreadable }

end Reader

/-- Reads a JSON text. -/
def parse? (s : String) : Option Json :=
  let cs := s.toList
  (Reader.tokens? cs.length cs).bind (ofTokens? Reader.rules)

/-- Reads a JSON text as it is written. -/
def parseAsWritten? (s : String) : Option Json :=
  let cs := s.toList
  (Reader.tokens? cs.length cs).bind (ofTokens? Reader.asWritten)

end Json
end LogLens
