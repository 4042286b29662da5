/-
Reading the relaxed notation of JSON.

It adds to JSON what people write by hand: comments, names without quotes, texts in single quotes
and over several lines, commas before closing brackets, signs, hexadecimal numbers, and the words
for infinity and NaN.
-/
import LogLens.Json.Reader

namespace LogLens
namespace Json
namespace Relaxed

/-! ## Space and comments -/

/-- White space, and the mark that may begin a file. -/
def isSpace (c : Char) : Bool :=
  (isBlank c && c != '\u0085') || c == '\uFEFF'

def endsLine (c : Char) : Bool :=
  c == '\n' || c == '\r' || c == '\u2028' || c == '\u2029'

/-- What follows a comment that `*/` ends. -/
def afterBlock? : List Char → Option (List Char)
  | '*' :: '/' :: rest => some rest
  | _ :: rest => afterBlock? rest
  | [] => none

/-! ## Texts -/

def singleEscape (c : Char) : Char :=
  match c with
  | 'b' => '\x08'
  | 'f' => '\x0c'
  | 'n' => '\n'
  | 'r' => '\r'
  | 't' => '\t'
  | 'v' => '\x0b'
  | c => c

/-- The pieces of a text up to the given quote, and the rest.  A backslash before the end of a line
joins the lines; a backslash before a character without a meaning of its own stands for nothing. -/
def pieces? (quote : Char) : List Char → Option (List Reader.Piece × List Char)
  | [] => none
  | '\\' :: 'u' :: a :: b :: c :: d :: rest => do
    let n ← Reader.hexNumber? [a, b, c, d]
    let (ps, rest) ← pieces? quote rest
    return (Reader.pieceOf n :: ps, rest)
  | '\\' :: 'x' :: a :: b :: rest => do
    let n ← Reader.hexNumber? [a, b]
    let (ps, rest) ← pieces? quote rest
    return (.char (Char.ofNat n) :: ps, rest)
  | '\\' :: '\r' :: '\n' :: rest => pieces? quote rest
  | '\\' :: c :: rest =>
    if endsLine c then pieces? quote rest
    else if c = '0' then
      if (rest.head?.map isDigit).getD false then none
      else (pieces? quote rest).map fun (ps, rest) => (.char '\x00' :: ps, rest)
    else if c = 'u' ∨ c = 'x' ∨ isDigit c then none
    else (pieces? quote rest).map fun (ps, rest) => (.char (singleEscape c) :: ps, rest)
  | c :: rest =>
    if c = quote then some ([], rest)
    else if c = '\\' ∨ c = '\n' ∨ c = '\r' then none
    else (pieces? quote rest).map fun (ps, rest) => (.char c :: ps, rest)

/-! ## Numbers -/

/-- An integer that 64 bits hold, or the nearest number. -/
def integer (negative : Bool) (n : Nat) : JsonNumber :=
  let value : Int := if negative then -(n : Int) else n
  if n ≤ Reader.maxWord ∧ Reader.minSigned ≤ value then .integer value
  else .real (Binary64.ofRatio negative n 1)

/-- A hexadecimal integer must fit 128 bits: unsigned ones when it is positive, and signed ones when
it is negative. -/
def fitsHex (negative : Bool) (n : Nat) : Bool :=
  if negative then n ≤ 0x80000000000000000000000000000000
  else n ≤ 0xFFFFFFFFFFFFFFFFFFFFFFFFFFFFFFFF

/-- A number behind its sign, and the rest. -/
def number? (negative : Bool) (cs : List Char) : Option (JsonNumber × List Char) :=
  match cs with
  | '0' :: x :: rest =>
    if x = 'x' ∨ x = 'X' then
      let digits := rest.takeWhile fun c => (Reader.hexValue? c).isSome
      if digits.isEmpty then none
      else (Reader.hexNumber? digits).bind fun n =>
        if fitsHex negative n then
          some (integer negative n, rest.dropWhile fun c => (Reader.hexValue? c).isSome)
        else none
    else decimal? cs
  | _ => decimal? cs
where
  decimal? (cs : List Char) : Option (JsonNumber × List Char) := do
    let whole := cs.takeWhile isDigit
    if whole.head? == some '0' && whole.length ≠ 1 then none
    let (point, part, rest) := match cs.dropWhile isDigit with
      | '.' :: behind => (true, behind.takeWhile isDigit, behind.dropWhile isDigit)
      | rest => (false, [], rest)
    if whole.isEmpty && part.isEmpty then none
    let (exponent, rest) ← Reader.exponent? rest
    if !point && exponent.isNone then return (integer negative (digitsValue whole), rest)
    let e : Int := match exponent with
      | none => 0
      | some (down, digits) => if down then -(digitsValue digits : Int) else digitsValue digits
    return (.real (Binary64.ofDecimal negative (digitsValue (whole ++ part)) (e - part.length)),
      rest)

/-! ## Words -/

def startsWord (c : Char) : Bool := isLetter c || c == '$' || c == '_'

/-- Letters, digits, connectors, joiners and the marks that do not enclose what they mark. -/
def continuesWord (c : Char) : Bool :=
  startsWord c || isDigit c || CharSet.decimalDigit.contains c ||
    CharSet.alphabeticMark.contains c ||
    (CharSet.wordMark.contains c && !CharSet.enclosingMark.contains c)

/-- The characters that continue a word and the escapes among them, and the rest. -/
def wordPieces? : List Char → Option (List Reader.Piece × List Char)
  | '\\' :: 'u' :: a :: b :: c :: d :: rest => do
    let n ← Reader.hexNumber? [a, b, c, d]
    let (ps, rest) ← wordPieces? rest
    return (Reader.pieceOf n :: ps, rest)
  | c :: rest =>
    if c = '\\' then none
    else if continuesWord c then (wordPieces? rest).map fun (ps, rest) => (.char c :: ps, rest)
    else some ([], c :: rest)
  | [] => some ([], [])

def isWord : List Char → Bool
  | [] => false
  | c :: cs => startsWord c && cs.all continuesWord

/-- A word and the rest.  An escape denotes fewer characters than it takes, so the lengths tell
whether there was one. -/
def word? (cs : List Char) : Option (Token × List Char) := do
  let (ps, rest) ← wordPieces? cs
  let w ← Reader.joinUnits? ps
  if !isWord w then none
  let s := String.ofList w
  return (if w.length + rest.length = cs.length then .word s else .escapedWord s, rest)

/-! ## Tokens -/

/-- A number behind a sign, or the words for infinity and NaN there. -/
def signed? (negative : Bool) (cs : List Char) : Option (Token × List Char) :=
  match afterPrefix? "Infinity".toList cs, afterPrefix? "NaN".toList cs with
  | some rest, _ => some (.number (.real (Binary64.infinity negative)), rest)
  | none, some rest => some (.number (.real .nan), rest)
  | none, none => (number? negative cs).map fun (n, rest) => (.number n, rest)

/-- The first token of a text that begins with neither space, comment nor end, and the rest. -/
def token? : List Char → Option (Token × List Char)
  | [] => none
  | '[' :: rest => some (.openArray, rest)
  | ']' :: rest => some (.closeArray, rest)
  | '\x7b' :: rest => some (.openObject, rest)
  | '\x7d' :: rest => some (.closeObject, rest)
  | ':' :: rest => some (.colon, rest)
  | ',' :: rest => some (.comma, rest)
  | '"' :: rest => (pieces? '"' rest).map fun (ps, rest) => (Reader.textOf ps, rest)
  | '\'' :: rest => (pieces? '\'' rest).map fun (ps, rest) => (Reader.textOf ps, rest)
  | '-' :: rest => signed? true rest
  | '+' :: rest => signed? false rest
  | c :: rest =>
    if isDigit c || c == '.' then
      (number? false (c :: rest)).map fun (n, rest) => (.number n, rest)
    else word? (c :: rest)

/-- The tokens of a text.  Every step takes at least one character, so as many steps as there are
characters are enough. -/
def tokens? : Nat → List Char → Option (List Token)
  | _, [] => some []
  | 0, _ :: _ => none
  | fuel + 1, c :: cs =>
    if isSpace c then tokens? fuel cs
    else match c, cs with
      | '/', '/' :: rest => tokens? fuel (rest.dropWhile fun c => !endsLine c)
      | '/', '*' :: rest => (afterBlock? rest).bind (tokens? fuel)
      | _, _ => do
        let (t, rest) ← token? (c :: cs)
        return t :: (← tokens? fuel rest)

/-- Infinity and NaN have no value but `null`. -/
def constant? : String → Option Json
  | "Infinity" => some .null
  | "NaN" => some .null
  | s => Reader.constant? s

def rules : Notation where
  maxDepth := none
  bareNames := true
  trailingComma := true
  beyondFinite := some .null
  constant? := constant?

end Relaxed

/-- Reads a text in the relaxed notation. -/
def parseRelaxed? (s : String) : Option Json :=
  let cs := s.toList
  (Relaxed.tokens? cs.length cs).bind (ofTokens? Relaxed.rules)

end Json
end LogLens
