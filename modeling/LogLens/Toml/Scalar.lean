/-
Single values of TOML documents: constants, numbers, dates and times.
-/
import LogLens.Json.Reader
import LogLens.Number.Reading
import LogLens.Time.Calendar

namespace LogLens
namespace Toml

/-! ## Integers -/

/-- Digits without the underscores between them.  Every underscore has a digit on either side. -/
def withoutUnderscores? (isDigit : Char → Bool) (cs : List Char) : Option (List Char) :=
  let groups := splitAtAny (· == '_') cs
  if groups.all fun group => !group.isEmpty && group.all isDigit then some groups.flatten else none

/-- Decimal digits; a zero stands in front of no other digit. -/
def decimalDigits? (cs : List Char) : Option (List Char) := do
  let digits ← withoutUnderscores? isDigit cs
  if digits.head? == some '0' && digits.length ≠ 1 then none else some digits

/-- The digits of a base, as far as they are hexadecimal digits. -/
def isDigitOf (base : Nat) (c : Char) : Bool :=
  match Json.Reader.hexValue? c with
  | some n => n < base
  | none => false

def numberOf (base : Nat) (digits : List Char) : Nat :=
  digits.foldl (fun n c => base * n + (Json.Reader.hexValue? c).getD 0) 0

def basedInteger? (base : Nat) (cs : List Char) : Option Nat :=
  (withoutUnderscores? (isDigitOf base) cs).map (numberOf base)

/-- Integers of more than 128 bits are not read. -/
def inRange? (n : Int) : Option Int :=
  if -0x80000000000000000000000000000000 ≤ n ∧ n < 0x100000000000000000000000000000000 then some n
  else none

def integer? (cs : List Char) : Option Int :=
  match cs with
  | '0' :: 'x' :: digits => (basedInteger? 16 digits).bind fun n => inRange? n
  | '0' :: 'o' :: digits => (basedInteger? 8 digits).bind fun n => inRange? n
  | '0' :: 'b' :: digits => (basedInteger? 2 digits).bind fun n => inRange? n
  | _ =>
    let (negative, body) := Reading.sign cs
    (decimalDigits? body).bind fun digits =>
      let n := digitsValue digits
      inRange? (if negative then -(n : Int) else n)

/-! ## Numbers with a fraction or an exponent -/

/-- The exponent of a number behind its mark. -/
def isExponent (cs : List Char) : Bool :=
  (withoutUnderscores? isDigit (Reading.sign cs).2).isSome

/-- What may stand behind the whole part of a number: a point and digits, an exponent, or both. -/
def isFractionOrExponent (cs : List Char) : Bool :=
  let isMark (c : Char) : Bool := c == 'e' || c == 'E'
  match cs with
  | '.' :: rest =>
    let part := rest.takeWhile fun c => !isMark c
    (withoutUnderscores? isDigit part).isSome &&
      match rest.dropWhile fun c => !isMark c with
      | [] => true
      | _ :: exponent => isExponent exponent
  | c :: exponent => isMark c && isExponent exponent
  | [] => false

/-- A number with a fraction or an exponent, infinity or NaN.  A number that rounds to infinity is
not read. -/
def real? (cs : List Char) : Option Binary64 :=
  let (negative, body) := Reading.sign cs
  if body = "inf".toList then some (Binary64.infinity negative)
  else if body = "nan".toList then some .nan
  else
    let isWhole (c : Char) : Bool := isDigit c || c == '_'
    if (decimalDigits? (body.takeWhile isWhole)).isSome &&
        isFractionOrExponent (body.dropWhile isWhole) then
      (Reading.binary64? (cs.filter (· != '_'))).filter (·.isFinite)
    else none

/-! ## Dates and times -/

/-- A number of two digits up to `high`, and the rest. -/
def upTo? (high : Nat) : List Char → Option (Nat × List Char)
  | a :: b :: rest =>
    let n := digitsValue [a, b]
    if isDigit a && isDigit b && n ≤ high then some (n, rest) else none
  | _ => none

/-- What follows a date at the front of a text. -/
def afterDate? (cs : List Char) : Option (List Char) := do
  let year := cs.take 4
  if year.length ≠ 4 || !year.all isDigit then none
  let (month, rest) ← upTo? 12 (← afterPrefix? ['-'] (cs.drop 4))
  let (day, rest) ← upTo? 31 (← afterPrefix? ['-'] rest)
  let _ ← CalendarDate.of? (digitsValue year) month day
  return rest

/-- What follows the seconds of a time, which may be missing, and their fraction. -/
def afterSeconds? (cs : List Char) : Option (List Char) :=
  match cs with
  | ':' :: rest => do
    let (_, rest) ← upTo? 60 rest
    match rest with
    | '.' :: digits =>
      if (digits.takeWhile isDigit).isEmpty then none else some (digits.dropWhile isDigit)
    | _ => some rest
  | _ => some cs

/-- What follows a time at the front of a text. -/
def afterTime? (cs : List Char) : Option (List Char) := do
  let (_, rest) ← upTo? 23 cs
  let (_, rest) ← upTo? 59 (← afterPrefix? [':'] rest)
  afterSeconds? rest

def isOffset : List Char → Bool
  | [] => true
  | ['Z'] => true
  | ['z'] => true
  | c :: rest =>
    (c == '+' || c == '-') &&
      ((upTo? 23 rest).bind fun (_, rest) =>
        (afterPrefix? [':'] rest).bind (upTo? 59)).any (·.2.isEmpty)

/-- A date, a time, or both with or without an offset. -/
def isDateOrTime (cs : List Char) : Bool :=
  match afterDate? cs with
  | none => (afterTime? cs).any List.isEmpty
  | some [] => true
  | some (c :: rest) => (c == 'T' || c == 't' || c == ' ') && (afterTime? rest).any isOffset

/-! ## All of them -/

/-- The value that a word writes.  A date has no type of its own here; it is taken for an object
with nothing of interest in it. -/
def ofWord? (cs : List Char) : Option Json :=
  if cs = "true".toList then some (.bool true)
  else if cs = "false".toList then some (.bool false)
  else match integer? cs with
    | some n => some (.number (.integer n))
    | none =>
      match real? cs with
      | some x => some (.real x)
      | none => if isDateOrTime cs then some (.object []) else none

def isWordChar (c : Char) : Bool :=
  c.isAlphanum || c == '+' || c == '-' || c == '_' || c == '.' || c == ':'

/-- The first word of a text, and the rest.  A blank between a date and a time belongs to the
word. -/
def word (cs : List Char) : List Char × List Char :=
  let first := cs.takeWhile isWordChar
  let rest := cs.dropWhile isWordChar
  match rest with
  | ' ' :: c :: _ =>
    if (afterDate? first).any List.isEmpty && isDigit c then
      (first ++ ' ' :: (rest.drop 1).takeWhile isWordChar, (rest.drop 1).dropWhile isWordChar)
    else (first, rest)
  | _ => (first, rest)

def scalar? (cs : List Char) : Option (Json × List Char) :=
  (ofWord? (word cs).1).map (·, (word cs).2)

end Toml
end LogLens
