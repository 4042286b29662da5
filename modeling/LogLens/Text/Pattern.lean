/-
Patterns of characters.

A pattern is matched at the start of a text and answers with everything that can remain behind a
match, the preferred match first: alternatives in their order, repetitions as long as possible.
So the first answer is the one a search from the left settles for, and the later ones are what it
falls back on when what follows does not fit.
-/
import LogLens.Text.CharClass

namespace LogLens

/-- What can remain of a text behind a match at its start, the preferred match first. -/
abbrev Pattern := List Char → List (List Char)

namespace Pattern

/-- One character of a class. -/
def one (p : Char → Bool) : Pattern
  | [] => []
  | c :: cs => if p c then [cs] else []

def char (c : Char) : Pattern := one (· == c)

/-- Exactly the given characters. -/
def exactly : List Char → Pattern
  | [], cs => [cs]
  | c :: w, cs => (char c cs).flatMap (exactly w)

def seq (a b : Pattern) : Pattern := fun cs => (a cs).flatMap b

/-- One pattern after the other. -/
def inOrder (ps : List Pattern) : Pattern := fun cs =>
  ps.foldl (fun rests p => rests.flatMap p) [cs]

/-- Any of the patterns, an earlier one preferred. -/
def anyOf (ps : List Pattern) : Pattern := fun cs => ps.flatMap (· cs)

/-- The pattern, or nothing. -/
def maybe (a : Pattern) : Pattern := fun cs => a cs ++ [cs]

/-- Characters of a class, as many as possible or fewer. -/
def many (p : Char → Bool) : Pattern
  | [] => [[]]
  | c :: cs => (if p c then many p cs else []) ++ [c :: cs]

/-- At least one character of a class. -/
def oneOrMore (p : Char → Bool) : Pattern := seq (one p) (many p)

/-- Exactly `n` characters of a class. -/
def times (n : Nat) (p : Char → Bool) : Pattern := inOrder (List.replicate n (one p))

/-- One or two characters of a class. -/
def oneOrTwo (p : Char → Bool) : Pattern := seq (one p) (maybe (one p))

/-- Nothing, at the end of the text. -/
def atEnd : Pattern
  | [] => [[]]
  | _ :: _ => []

/-! ## What a match covers -/

/-- The matched characters, when `rest` remains behind a match at the start of `cs`. -/
def covered (cs rest : List Char) : List Char := cs.take (cs.length - rest.length)

/-- The preferred match: the characters it covers and the rest. -/
def first? (p : Pattern) (cs : List Char) : Option (List Char × List Char) :=
  (p cs).head?.map fun rest => (covered cs rest, rest)

/-- Whether a word begins or ends between two neighbouring characters. -/
def isWordEdge (left right : Option Char) : Bool :=
  (left.map isWordChar).getD false != (right.map isWordChar).getD false

/-- The matches of a pattern from left to right, none overlapping the one before.  The pattern is
told what character precedes it, and `skip` characters belong to the last match.  A match covers at
least one character. -/
def scanFrom (p : Option Char → Pattern) (before : Option Char) : Nat → List Char → List (List Char)
  | _, [] => []
  | skip + 1, c :: cs => scanFrom p (some c) skip cs
  | 0, c :: cs =>
    match first? (p before) (c :: cs) with
    | none => scanFrom p (some c) 0 cs
    | some (found, _) => found :: scanFrom p (some c) (found.length - 1) cs

/-- All matches of a pattern in a text. -/
def scan (p : Option Char → Pattern) (cs : List Char) : List (List Char) :=
  scanFrom p none 0 cs

/-- The pieces of a text between the matches of a pattern; `skip` characters belong to the last
match. -/
def splitFrom (p : Pattern) : Nat → List Char → List (List Char)
  | _, [] => [[]]
  | skip + 1, _ :: cs => splitFrom p skip cs
  | 0, c :: cs =>
    match first? p (c :: cs) with
    | some (found, _) => [] :: splitFrom p (found.length - 1) cs
    | none =>
      match splitFrom p 0 cs with
      | [] => [[c]]
      | piece :: pieces => (c :: piece) :: pieces

def split (p : Pattern) (cs : List Char) : List (List Char) := splitFrom p 0 cs

end Pattern
end LogLens
