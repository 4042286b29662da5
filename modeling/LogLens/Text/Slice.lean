/-
Cutting and searching texts.

Texts are cut as lists of characters, so that each operation is a recursion on its input.  The
operations on `String` wrap those on lists.
-/
import LogLens.Text.CharClass

namespace LogLens

/-! ## Trimming -/

/-- The list without the longest end all of whose elements satisfy `p`. -/
def dropEndWhile {α : Type} (p : α → Bool) (cs : List α) : List α :=
  (cs.reverse.dropWhile p).reverse

def trimStart (cs : List Char) : List Char :=
  cs.dropWhile isBlank

def trimEnd (cs : List Char) : List Char :=
  dropEndWhile isBlank cs

def trim (cs : List Char) : List Char :=
  trimEnd (trimStart cs)

/-- Removes every leading and every trailing character that satisfies `p`. -/
def trimMatches (p : Char → Bool) (cs : List Char) : List Char :=
  dropEndWhile p (cs.dropWhile p)

/-- The text without white space at its ends. -/
def trimText (s : String) : String :=
  String.ofList (trim s.toList)

/-! ## Prefixes, suffixes and occurrences -/

/-- What follows `lead`, if the text begins with it. -/
def afterPrefix? {α : Type} [BEq α] : List α → List α → Option (List α)
  | [], cs => some cs
  | _ :: _, [] => none
  | p :: ps, c :: cs => if p == c then afterPrefix? ps cs else none

/-- What comes before `tail`, if the text ends with it. -/
def beforeSuffix? {α : Type} [BEq α] (tail cs : List α) : Option (List α) :=
  (afterPrefix? tail.reverse cs.reverse).map List.reverse

/-- Whether `needle` occurs somewhere in the text. -/
def occursIn {α : Type} [BEq α] (needle : List α) : List α → Bool
  | [] => needle.isEmpty
  | c :: cs => needle.isPrefixOf (c :: cs) || occursIn needle cs

/-- Equality that takes ASCII letters of either case as the same. -/
def equalsIgnoringCase (s t : List Char) : Bool :=
  s.map Char.toLower == t.map Char.toLower

/-- Replaces the occurrences of the pair `a`, `b`, taken from the left, by `c`. -/
def replacePair (a b c : Char) : List Char → List Char
  | x :: y :: rest =>
    if x = a ∧ y = b then c :: replacePair a b c rest else x :: replacePair a b c (y :: rest)
  | cs => cs

/-! ## Splitting -/

/-- The maximal runs of characters that satisfy `p`. -/
def runsOf (p : Char → Bool) (cs : List Char) : List (List Char) :=
  close (cs.foldr step ([], []))
where
  /-- The run that is open at the left end, and the runs after it. -/
  step (c : Char) (st : List Char × List (List Char)) : List Char × List (List Char) :=
    if p c then (c :: st.1, st.2) else ([], close st)
  close (st : List Char × List (List Char)) : List (List Char) :=
    if st.1.isEmpty then st.2 else st.1 :: st.2

/-- The pieces between the characters that satisfy `p`; there is always at least one. -/
def splitAtAny (p : Char → Bool) : List Char → List (List Char)
  | [] => [[]]
  | c :: cs =>
    if p c then [] :: splitAtAny p cs
    else match splitAtAny p cs with
      | [] => [[c]]
      | piece :: pieces => (c :: piece) :: pieces

/-- A line without the carriage return that its line feed followed. -/
def dropReturn (line : List Char) : List Char :=
  match line.getLast? with
  | some '\r' => line.dropLast
  | _ => line

/-- The lines of a text.  A line feed ends a line, together with a carriage return right before it;
a last line without a line feed counts when it is not empty, and keeps its carriage return. -/
def linesOf (cs : List Char) : List (List Char) :=
  complete (splitAtAny (· == '\n') cs)
where
  complete : List (List Char) → List (List Char)
    | [] => []
    | [final] => if final.isEmpty then [] else [final]
    | line :: rest => dropReturn line :: complete rest

/-- The lines of a text. -/
def textLines (s : String) : List String :=
  (linesOf s.toList).map String.ofList

/-! ## Joining -/

/-- The texts one after the other, with `separator` between neighbours. -/
def joinWith (separator : String) : List String → String
  | [] => ""
  | [s] => s
  | s :: rest => s ++ separator ++ joinWith separator rest

end LogLens
