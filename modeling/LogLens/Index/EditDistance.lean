/-
Edit distance: how many insertions, deletions and substitutions of single characters lead from one
text to another.

The bounded distance is found row by row.  Row `i` holds the distances from the first `i`
characters of one text to the beginnings of the other; a row whose least entry is over the bound
ends the search, since no later entry is less.  Only two rows are kept: the next row is written over
the last but one.
-/
namespace LogLens
namespace Index

/-- The distance by its definition. -/
def editDistance : List Char → List Char → Nat
  | [], t => t.length
  | s, [] => s.length
  | a :: s, b :: t =>
    if a = b then editDistance s t
    else 1 + min (editDistance s t) (min (editDistance s (b :: t)) (editDistance (a :: s) t))
  termination_by s t => s.length + t.length

/-! ## Rows in place -/

/-- A row was read or written behind its end. -/
structure BehindEnd where
  deriving DecidableEq

def entry (row : Array Nat) (j : Nat) : Except BehindEnd Nat :=
  match row[j]? with
  | some n => .ok n
  | none => .error ⟨⟩

def setEntry (row : Array Nat) (j n : Nat) : Except BehindEnd (Array Nat) :=
  if j < row.size then .ok (row.setIfInBounds j n) else .error ⟨⟩

/-- Writes the entries of a row that are behind entry `j`, and finds the least entry. -/
def fillRow (a : Char) (above : Array Nat) :
    Nat → List Char → Array Nat → Nat → Except BehindEnd (Array Nat × Nat)
  | _, [], row, least => .ok (row, least)
  | j, b :: t, row, least => do
    let diagonal ← entry above j
    let upper ← entry above (j + 1)
    let left ← entry row j
    let n := min (min (diagonal + if a = b then 0 else 1) (upper + 1)) (left + 1)
    fillRow a above (j + 1) t (← setEntry row (j + 1) n) (min least n)

/-- Goes on from row `i` for the remaining characters of the first text; `spare` is the row that is
written next. -/
def fillRows (t : List Char) (limit : Nat) :
    Nat → List Char → Array Nat → Array Nat → Except BehindEnd (Option (Array Nat))
  | _, [], row, _ => .ok (some row)
  | i, a :: s, row, spare => do
    let (next, least) ← fillRow a row 0 t (← setEntry spare 0 (i + 1)) (i + 1)
    if limit < least then return none
    fillRows t limit (i + 1) s next row

/-- The distance if it is at most `limit`. -/
def distanceInRows (s t : List Char) (limit : Nat) : Except BehindEnd (Option Nat) :=
  if limit < max s.length t.length - min s.length t.length then .ok none
  else do
    match ← fillRows t limit 0 s (Array.range (t.length + 1))
        (Array.replicate (t.length + 1) 0) with
    | none => return none
    | some row =>
      let distance ← entry row t.length
      return if distance ≤ limit then some distance else none

/-- The distance of two texts if it is at most `limit`. -/
def boundedDistance? (s t : String) (limit : Nat) : Option Nat :=
  match distanceInRows s.toList t.toList limit with
  | .ok found => found
  | .error _ => none

end Index
end LogLens
