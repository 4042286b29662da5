/-
Tokens of the query language.

Every text has tokens: a quote or a bracket that is not closed reaches to the end, and a closing
bracket without its partner is passed over.  A word right behind an operator is a value and may
hold colons and angle brackets; any other word ends before them.

The text is read by position.  To ask for a character where there is none is an error, and so is a
step that does not lead to a later position.
-/
import LogLens.Text.Slice

namespace LogLens
namespace Query

inductive Comparison where
  | colon
  | gt
  | gte
  | lt
  | lte
  deriving DecidableEq

/-- What an angle bracket says, alone or with an equals sign behind it. -/
def Comparison.ofAngle : Char → Bool → Comparison
  | '>', false => gt
  | '>', true => gte
  | '<', false => lt
  | _, _ => lte

inductive Token where
  /-- A word with a colon behind it. -/
  | field (name : String)
  | operator (op : Comparison)
  /-- A quoted value, without its quotes. -/
  | value (s : String)
  /-- A range literal, with its brackets. -/
  | range (literal : String)
  | text (word : String)
  | paren (c : Char)
  | and
  | or
  | not
  deriving DecidableEq

namespace Token

def isOperator : Token → Bool
  | operator _ => true
  | _ => false

/-! ## Kinds of characters -/

/-- The characters that end a word which is not a value. -/
def isSpecial (c : Char) : Bool :=
  isBlank c || ['"', ':', '(', ')', '[', ']', '<', '>'].contains c

/-- The characters that end a value without quotes. -/
def endsValue (c : Char) : Bool :=
  isBlank c || ['"', '(', ')', '[', ']'].contains c

/-- What a word that is not a value means: a keyword in any case of ASCII letters, the name of a
field when a colon comes next, or free text. -/
def ofWord (word rest : List Char) : Token :=
  if equalsIgnoringCase word "AND".toList then .and
  else if equalsIgnoringCase word "OR".toList then .or
  else if equalsIgnoringCase word "NOT".toList then .not
  else if (trimStart rest).head? == some ':' then .field (String.ofList word)
  else .text (String.ofList word)

/-! ## Reading at a position -/

/-- How the reading of a text could break off. -/
inductive Fault where
  /-- A character or a stretch was asked for that is not in the text. -/
  | outside
  /-- A step did not go on. -/
  | stuck
  deriving DecidableEq

variable (cs : Array Char)

def charAt (i : Nat) : Except Fault Char :=
  match cs[i]? with
  | some c => .ok c
  | none => .error .outside

def charBefore : Nat → Except Fault Char
  | 0 => .error .outside
  | i + 1 => charAt cs i

/-- The characters from position `i` up to position `j`. -/
def slice (i j : Nat) : Except Fault (List Char) :=
  if i ≤ j ∧ j ≤ cs.size then .ok (cs.extract i j).toList else .error .outside

/-- The first position from `i` on where a walk stops, the end of the text at the latest. -/
def stopFrom (stops : Char → Bool) (i : Nat) : Except Fault Nat :=
  if i < cs.size then do
    if stops (← charAt cs i) then return i
    stopFrom stops (i + 1)
  else .ok i
  termination_by cs.size - i

/-- Whether the character `c` at position `i` is a backslash before a quote. -/
def escapesAt (c : Char) (i : Nat) : Except Fault Bool :=
  if c = '\\' ∧ i + 1 < cs.size then do return (← charAt cs (i + 1)) == '"' else .ok false

/-- The quoted characters from position `i` on, and the position of the closing quote, or the end of
the text.  A backslash before a quote keeps the quote from closing and does not count itself. -/
def quotedFrom (i : Nat) : Except Fault (List Char × Nat) :=
  if i < cs.size then do
    let c ← charAt cs i
    if c = '"' then return ([], i)
    if ← escapesAt cs c i then
      let (inside, j) ← quotedFrom (i + 2)
      return ('"' :: inside, j)
    else
      let (inside, j) ← quotedFrom (i + 1)
      return (c :: inside, j)
  else .ok ([], i)
  termination_by cs.size - i

/-- Whether position `i` is right behind an operator, when the last token was one. -/
def behindOperatorAt (afterOperator : Bool) (i : Nat) : Except Fault Bool :=
  if afterOperator then do return !isBlank (← charBefore cs i) else .ok false

/-- A word right behind an operator is a value; any other word is classified. -/
def wordAt (afterOperator : Bool) (i : Nat) : Except Fault (Token × Nat) := do
  let isValue ← behindOperatorAt cs afterOperator i
  let j ← stopFrom cs (if isValue then endsValue else isSpecial) i
  let word ← slice cs i j
  if isValue then return (.text (String.ofList word), j)
  return (ofWord word (← slice cs j cs.size), j)

/-- The token at position `i`, if there is one, and the position to go on at.  The flag says whether
the last token was an operator. -/
def tokenAt (afterOperator : Bool) (i : Nat) : Except Fault (Option Token × Nat) := do
  let c ← charAt cs i
  if isBlank c then return (none, i + 1)
  else if c = '"' then
    let (inside, j) ← quotedFrom cs (i + 1)
    -- behind the closing quote, or one past the end if there is none
    return (some (.value (String.ofList inside)), j + 1)
  else if c = '[' then
    let j ← stopFrom cs (· == ']') i
    let behind := min (j + 1) cs.size
    return (some (.range (String.ofList (← slice cs i behind))), behind)
  else if c = ':' then return (some (.operator .colon), i + 1)
  else if c = '>' ∨ c = '<' then
    let inclusive := cs[i + 1]? == some '='
    return (some (.operator (.ofAngle c inclusive)), if inclusive then i + 2 else i + 1)
  else if c = '(' ∨ c = ')' then return (some (.paren c), i + 1)
  else if c = ']' then return (none, i + 1)
  else
    let (token, j) ← wordAt cs afterOperator i
    return (some token, j)

/-- The tokens from position `i` on. -/
def tokensFrom (afterOperator : Bool) (i : Nat) : Except Fault (List Token) :=
  if i < cs.size then do
    let (token?, j) ← tokenAt cs afterOperator i
    if i < j then
      match token? with
      | none => tokensFrom afterOperator j
      | some token => return token :: (← tokensFrom token.isOperator j)
    else .error .stuck
  else .ok []
  termination_by cs.size - i

end Token

/-- The tokens of a text, in order. -/
def tokenize (s : String) : List Token :=
  match Token.tokensFrom s.toList.toArray false 0 with
  | .ok tokens => tokens
  | .error _ => []

end Query
end LogLens
