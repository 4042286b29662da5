/-
Why a text is no JSON.

The text is passed over from the left up to the first place where no JSON text can go on.  What
stands there is told together with the place.  Columns count bytes: a place behind something that
was taken is the column of its last byte, and a place in front of something unexpected is the column
of its first byte.
-/
import LogLens.Json.Reader

namespace LogLens
namespace Json

inductive Flaw where
  | endInArray
  | endInObject
  | endInText
  | endInValue
  | noColon
  | noArrayEnd
  | noObjectEnd
  | noConstant
  | noValue
  | noName
  | badEscape
  | badNumber
  | numberOutOfRange
  | controlInText
  | loneSurrogate
  | missingSurrogate
  | trailingComma
  | trailingCharacters
  | tooDeep
  deriving DecidableEq

def Flaw.message : Flaw → String
  | endInArray => "EOF while parsing a list"
  | endInObject => "EOF while parsing an object"
  | endInText => "EOF while parsing a string"
  | endInValue => "EOF while parsing a value"
  | noColon => "expected \x60:\x60"
  | noArrayEnd => "expected \x60,\x60 or \x60]\x60"
  | noObjectEnd => "expected \x60,\x60 or \x60\x7d\x60"
  | noConstant => "expected ident"
  | noValue => "expected value"
  | noName => "key must be a string"
  | badEscape => "invalid escape"
  | badNumber => "invalid number"
  | numberOutOfRange => "number out of range"
  | controlInText => "control character (\\u0000-\\u001F) found while parsing a string"
  | loneSurrogate => "lone leading surrogate in hex escape"
  | missingSurrogate => "unexpected end of hex escape"
  | trailingComma => "trailing comma"
  | trailingCharacters => "trailing characters"
  | tooDeep => "recursion limit exceeded"

/-- A flaw and its place. -/
structure Refusal where
  flaw : Flaw
  line : Nat
  column : Nat
  deriving DecidableEq

def Refusal.message (r : Refusal) : String :=
  r.flaw.message ++ " at line " ++ toString r.line ++ " column " ++ toString r.column

namespace Refusal

/-- Where the way through a text ends: the rest, and how many bytes of it were looked at. -/
structure Stop where
  flaw : Flaw
  rest : List Char
  looked : Nat

/-- What is left behind something that was passed over. -/
abbrev Passage := Except Stop (List Char)

/-- The end of the text, where something has to follow. -/
def ended {α : Type} (flaw : Flaw) : Except Stop α := .error ⟨flaw, [], 0⟩

/-- An unexpected character. -/
def unexpected {α : Type} (flaw : Flaw) (rest : List Char) : Except Stop α := .error ⟨flaw, rest, 1⟩

/-! ## Constants -/

def passConstant : List Char → List Char → Passage
  | [], cs => .ok cs
  | _ :: _, [] => ended .endInValue
  | w :: ws, c :: cs => if c = w then passConstant ws cs else unexpected .noConstant (c :: cs)

/-! ## Numbers -/

def passPart : List Char → Passage
  | '.' :: rest =>
    match rest with
    | [] => ended .endInValue
    | c :: cs =>
      if isDigit c then .ok ((c :: cs).dropWhile isDigit) else unexpected .badNumber (c :: cs)
  | cs => .ok cs

/-- What is left behind the digits of an exponent, or behind the one that makes it too large to
compute with. -/
def passExponentDigits : Nat → List Char → List Char
  | _, [] => []
  | n, c :: cs =>
    if !isDigit c then c :: cs
    else if Reader.maxExponent < 10 * n + digitValue c then cs
    else passExponentDigits (10 * n + digitValue c) cs

/-- The digits of an exponent, with what follows them. -/
def exponentDigits? : List Char → Option (List Char)
  | [] => none
  | e :: rest =>
    if e = 'e' ∨ e = 'E' then
      some (match rest with
        | '-' :: body => body
        | '+' :: body => body
        | body => body)
    else none

/-- A number behind its sign. -/
def passNumber (cs : List Char) : Passage :=
  match cs with
  | [] => ended .endInValue
  | c :: rest =>
    if !isDigit c then unexpected .badNumber cs
    else if c = '0' && (rest.head?.map isDigit).getD false then unexpected .badNumber rest
    else do
      let behind ← passPart (cs.dropWhile isDigit)
      let behind ← match exponentDigits? behind with
        | none => .ok behind
        | some [] => ended .endInValue
        | some (d :: ds) =>
          if isDigit d then .ok (passExponentDigits 0 (d :: ds))
          else unexpected .badNumber (d :: ds)
      match Reader.unsigned? false cs with
      | some (.real x, rest) =>
        if x.isFinite then .ok rest else .error ⟨.numberOutOfRange, behind, 0⟩
      | _ => .ok behind

/-! ## Texts -/

def utf8Length (cs : List Char) : Nat := cs.foldl (fun n c => n + c.utf8Size) 0

/-- The sixteen bits that four hexadecimal digits write.  Four bytes are taken for digits. -/
def hexUnit (cs : List Char) : Except Stop (Nat × List Char) :=
  if utf8Length cs < 4 then ended .endInText
  else match Reader.hexNumber? (cs.take 4) with
    | some n => .ok (n, cs.drop 4)
    | none => .error ⟨.badEscape, cs, 4⟩

def isHighSurrogate (n : Nat) : Bool := 0xD800 ≤ n && n < 0xDC00

def isLowSurrogate (n : Nat) : Bool := 0xDC00 ≤ n && n < 0xE000

/-- How many characters a code behind `\u` takes, with the one that has to follow the first half of
a character. -/
def codeLength (cs : List Char) : Except Stop Nat := do
  let (n, rest) ← hexUnit cs
  if isLowSurrogate n then .error ⟨.loneSurrogate, cs, 4⟩
  else if !isHighSurrogate n then return 4
  else match rest with
    | [] => ended .endInText
    | ['\\'] => ended .endInText
    | '\\' :: 'u' :: rest =>
      let (low, _) ← hexUnit rest
      if isLowSurrogate low then return 10 else .error ⟨.loneSurrogate, rest, 4⟩
    | '\\' :: rest => unexpected .missingSurrogate rest
    | rest => unexpected .missingSurrogate rest

/-- How many characters an escape takes behind its backslash. -/
def escapeLength : List Char → Except Stop Nat
  | [] => ended .endInText
  | c :: cs =>
    if c = 'u' then (codeLength cs).map (· + 1)
    else if (Reader.escaped? c).isSome then .ok 1
    else unexpected .badEscape (c :: cs)

/-- A text behind its opening quote; `skip` characters belong to the last escape. -/
def passText : Nat → List Char → Passage
  | _, [] => ended .endInText
  | skip + 1, _ :: cs => passText skip cs
  | 0, c :: cs =>
    if c = '"' then .ok cs
    else if c = '\\' then
      match escapeLength cs with
      | .error stop => .error stop
      | .ok n => passText n cs
    else if c.toNat < 0x20 then unexpected .controlInText (c :: cs)
    else passText 0 cs

/-! ## Arrays and objects -/

inductive Bracket where
  | array
  | object
  deriving DecidableEq

/-- What has to come next. -/
inductive Wanted where
  | value
  | firstItem
  | nextItem
  | firstName
  | nextName
  | colon
  /-- A comma, or the end of the innermost array or object. -/
  | comma
  deriving DecidableEq

/-- The flaw of a text that ends inside of the given brackets where something else is wanted. -/
def flawAtEnd (stack : List Bracket) : Wanted → Flaw
  | .firstItem => .endInArray
  | .firstName | .colon => .endInObject
  | .comma => if stack.head? = some .array then .endInArray else .endInObject
  | .value | .nextItem | .nextName => .endInValue

/-- The way on from a place: the brackets that are open there, what is wanted, and the rest. -/
abbrev Step := List Bracket × Wanted × List Char

/-- A value that begins with the given character. -/
def passValue (stack : List Bracket) (c : Char) (cs : List Char) : Except Stop Step :=
  let behind (p : Passage) : Except Stop Step := p.map fun rest => (stack, .comma, rest)
  let opened (b : Bracket) (w : Wanted) : Except Stop Step :=
    if stack.length < 127 then .ok (b :: stack, w, cs) else unexpected .tooDeep (c :: cs)
  match c with
  | '[' => opened .array .firstItem
  | '\x7b' => opened .object .firstName
  | '"' => behind (passText 0 cs)
  | 'n' => behind (passConstant "ull".toList cs)
  | 't' => behind (passConstant "rue".toList cs)
  | 'f' => behind (passConstant "alse".toList cs)
  | '-' => behind (passNumber cs)
  | c => if isDigit c then behind (passNumber (c :: cs)) else unexpected .noValue (c :: cs)

/-- The name of a member that begins with the given character. -/
def passName (stack : List Bracket) (c : Char) (cs : List Char) : Except Stop Step :=
  if c = '"' then (passText 0 cs).map fun rest => (stack, .colon, rest)
  else unexpected .noName (c :: cs)

/-- One step, at a character that is no white space. -/
def step (stack : List Bracket) (wanted : Wanted) (c : Char) (cs : List Char) : Except Stop Step :=
  let closed : Step := (stack.tail, .comma, cs)
  match wanted with
  | .value => passValue stack c cs
  | .firstItem => if c = ']' then .ok closed else passValue stack c cs
  | .nextItem => if c = ']' then unexpected .trailingComma (c :: cs) else passValue stack c cs
  | .firstName => if c = '\x7d' then .ok closed else passName stack c cs
  | .nextName => if c = '\x7d' then unexpected .trailingComma (c :: cs) else passName stack c cs
  | .colon => if c = ':' then .ok (stack, .value, cs) else unexpected .noColon (c :: cs)
  | .comma =>
    match stack with
    | [] => unexpected .trailingCharacters (c :: cs)
    | .array :: _ =>
      if c = ']' then .ok closed
      else if c = ',' then .ok (stack, .nextItem, cs)
      else unexpected .noArrayEnd (c :: cs)
    | .object :: _ =>
      if c = '\x7d' then .ok closed
      else if c = ',' then .ok (stack, .nextName, cs)
      else unexpected .noObjectEnd (c :: cs)

/-- The way through a text, which ends at its first flaw.  Every step takes at least one character,
so as many steps as there are characters are enough. -/
def walk : Nat → Step → Option Stop
  | 0, _ => none
  | fuel + 1, (stack, wanted, cs) =>
    match cs.dropWhile Reader.isSpace with
    | [] =>
      if stack.isEmpty && wanted = .comma then none else some ⟨flawAtEnd stack wanted, [], 0⟩
    | c :: cs =>
      match step stack wanted c cs with
      | .ok next => walk fuel next
      | .error stop => some stop

/-! ## Places -/

/-- The line and the column of the byte in front of which `n` bytes of the text are passed. -/
def placeOf (n : Nat) : Nat → Nat → List Char → Nat × Nat
  | line, column, [] => (line, column)
  | line, column, c :: cs =>
    if n < c.utf8Size then (line, column + n)
    else if c = '\n' then placeOf (n - 1) (line + 1) 0 cs
    else placeOf (n - c.utf8Size) line (column + c.utf8Size) cs

end Refusal

/-- What is wrong with a text that is no JSON, if something is. -/
def refusal? (s : String) : Option Refusal :=
  let cs := s.toList
  (Refusal.walk (cs.length + 1) ([], .value, cs)).map fun stop =>
    let passed := Refusal.utf8Length cs - Refusal.utf8Length stop.rest + stop.looked
    let (line, column) := Refusal.placeOf passed 1 0 cs
    ⟨stop.flaw, line, column⟩

end Json
end LogLens
