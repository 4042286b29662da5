/-
Sorting a short list.

A few elements are sorted by insertion.  A list that is a little longer is sorted in two halves,
each from a start that a fixed pattern of comparisons puts in order, and the halves are merged from
both ends at once.  Where the two ends do not meet, the comparison contradicts itself, and the sort
breaks off.
-/
namespace LogLens

/-- A comparison that a sort relies on contradicts itself. -/
structure Disorder where
  deriving DecidableEq

namespace StableSort

variable {α : Type} (less : α → α → Bool)

/-! ## Insertion -/

/-- Puts an element into a sorted list, both read from the back. -/
def insertBack (x : α) : List α → List α
  | [] => [x]
  | y :: rest => if less x y then y :: insertBack x rest else x :: y :: rest

/-- Inserts elements into a sorted list one after the other. -/
def insertAll (sorted rest : List α) : List α :=
  (rest.foldl (fun back x => insertBack less x back) sorted.reverse).reverse

/-! ## Merging -/

/-- What a merge has taken from the fronts of two lists, and what it has left of both. -/
structure Merged (α : Type) where
  taken : List α
  left : List α
  right : List α

/-- Takes `n` elements from the fronts of two sorted lists, from the right one only where its
element is less. -/
def mergeFront : Nat → List α → List α → Merged α
  | 0, left, right => ⟨[], left, right⟩
  | n + 1, [], right => ⟨right.take (n + 1), [], right.drop (n + 1)⟩
  | n + 1, left, [] => ⟨left.take (n + 1), left.drop (n + 1), []⟩
  | n + 1, x :: left, y :: right =>
    if less y x then
      let m := mergeFront n (x :: left) right
      { m with taken := y :: m.taken }
    else
      let m := mergeFront n left (y :: right)
      { m with taken := x :: m.taken }

/-- Takes `n` elements from the backs of two sorted lists; all lists of the result are read from
the back, those of the right list as the left ones. -/
def mergeBack (n : Nat) (left right : List α) : Merged α :=
  mergeFront (fun x y => less y x) n right.reverse left.reverse

/-- Merges two sorted lists, from the end where the shorter one is. -/
def merge (left right : List α) : List α :=
  if left.length ≤ right.length then
    (mergeFront less (left.length + right.length) left right).taken
  else (mergeBack less (left.length + right.length) left right).taken.reverse

/-- Merges two sorted lists from both ends at once, as many elements from each end as there are in
the left list; the right list is as long or longer by one.  The ends have to meet. -/
def mergeHalves (left right : List α) : Except Disorder (List α) :=
  let front := mergeFront less left.length left right
  let back := mergeBack less left.length left right
  let taken := left.length - front.left.length
  let kept := back.right.length
  let between := right.length - left.length
  -- the element between the ends is from the left list if that still has one
  let fromLeft := if taken < kept then between else 0
  if taken + fromLeft = kept then
    .ok (front.taken ++ front.left.take fromLeft ++ front.right.take (between - fromLeft) ++
      back.taken.reverse)
  else .error ⟨⟩

/-! ## Fixed patterns -/

/-- Sorts two elements. -/
def sort2 (x y : α) : α × α :=
  if less y x then (y, x) else (x, y)

/-- Merges the sorted pairs `a`, `b` and `c`, `d`. -/
def mergePairs (a b c d : α) : List α :=
  let first := less c a
  let last := less d b
  let (x, y) := sort2 less
    (if first then a else if last then c else b)
    (if last then d else if first then b else c)
  [if first then c else a, x, y, if last then b else d]

/-- Sorts four elements by five comparisons. -/
def sort4 (p q r s : α) : List α :=
  let (a, b) := sort2 less p q
  let (c, d) := sort2 less r s
  mergePairs less a b c d

/-- Sorts the start of a list of at least `16`, of at least `8` or of fewer elements, and inserts
the others. -/
def sortHalf (total : Nat) : List α → Except Disorder (List α)
  | a :: b :: c :: d :: rest =>
    if 16 ≤ total then
      match rest with
      | e :: f :: g :: h :: rest => do
        let start ← mergeHalves less (sort4 less a b c d) (sort4 less e f g h)
        return insertAll less start rest
      | rest => .ok (insertAll less (sort4 less a b c d) rest)
    else if 8 ≤ total then .ok (insertAll less (sort4 less a b c d) rest)
    else .ok (insertAll less [] (a :: b :: c :: d :: rest))
  | short => .ok (insertAll less [] short)

/-- Sorts a list of moderate length. -/
def sortShort (v : List α) : Except Disorder (List α) := do
  let left ← sortHalf less v.length (v.take (v.length / 2))
  let right ← sortHalf less v.length (v.drop (v.length / 2))
  mergeHalves less left right

end StableSort
end LogLens
