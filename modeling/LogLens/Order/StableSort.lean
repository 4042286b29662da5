/-
A stable sort that merges runs.

A list of at most twenty elements is sorted by insertion.  A longer one is cut into runs: what is in
order already, or in strictly descending order, is one; the rest is cut into short pieces.  Runs
that lie side by side are merged in the order of a tree that is nearly balanced.  Pieces that are
not in order yet are put together as long as they can be, and then sorted by a quicksort that keeps
equal elements in their order.

The comparison has to tell which of two elements is less.  Where its answers contradict each other
the order of the result means nothing, or the sort breaks off.
-/
import LogLens.Order.SmallSort

namespace LogLens
namespace StableSort

variable {α : Type} (less : α → α → Bool)

/-- The most elements that are sorted as a short list. -/
def shortLength : Nat := 32

/-! ## Runs -/

/-- A stretch of the list; one that is not sorted yet is as it was in the list. -/
structure Run (α : Type) where
  elems : List α
  sorted : Bool

/-- How many elements go on ascending, or descending, from `x`. -/
def chainLength (down : Bool) : α → List α → Nat
  | _, [] => 0
  | x, y :: rest => if less y x == down then chainLength down y rest + 1 else 0

/-- The second element is less than the first. -/
def descends : List α → Bool
  | x :: y :: _ => less y x
  | _ => false

/-- How many elements the list begins with that ascend, or strictly descend. -/
def leadLength : List α → Nat
  | [] => 0
  | x :: rest => chainLength less (descends less (x :: rest)) x rest + 1

/-- How runs are made: the length from which one that is there is taken, whether shorter ones are
sorted at once, and how a run is sorted. -/
structure Manner (α : Type) where
  good : Nat
  eager : Bool
  quick : List α → Except Disorder (List α)

/-- The length of the first run of a list, and the run. -/
def firstRun (m : Manner α) (v : List α) : Nat × Except Disorder (Run α) :=
  let found := leadLength less v
  if m.good ≤ found then
    let lead := v.take found
    (found, .ok ⟨if descends less v then lead.reverse else lead, true⟩)
  else if m.eager then (shortLength, (m.quick (v.take shortLength)).map (⟨·, true⟩))
  else (m.good, .ok ⟨v.take m.good, false⟩)

/-- Cuts a list into runs. -/
def runsOf (m : Manner α) : List α → Except Disorder (List (Run α))
  | [] => .ok []
  | x :: rest => do
    let (length, run) := firstRun less m (x :: rest)
    let run ← run
    let runs ← runsOf m (rest.drop (length - 1))
    return run :: runs
termination_by v => v.length

/-- The elements of a run in order. -/
def Run.settle (quick : List α → Except Disorder (List α)) (r : Run α) :
    Except Disorder (List α) :=
  if r.sorted then .ok r.elems else quick r.elems

/-- Puts two runs together.  If neither is sorted and there is room for both, that is left for
later. -/
def mergeRuns (quick : List α → Except Disorder (List α)) (room : Nat) (left right : Run α) :
    Except Disorder (Run α) :=
  if !left.sorted && !right.sorted && left.elems.length + right.elems.length ≤ room then
    .ok ⟨left.elems ++ right.elems, false⟩
  else do
    let l ← left.settle quick
    let r ← right.settle quick
    return ⟨merge less l r, true⟩

/-! ## The order of merges -/

/-- How many bits a number has. -/
def bitLength (n : Nat) : Nat := if n = 0 then 0 else n.log2 + 1

/-- The depth in the tree of merges at which the runs from `start` to `mid` and from `mid` to
`finish` meet; the factor spreads the places over 63 bits. -/
def mergeDepth (factor start mid finish : Nat) : Nat :=
  64 - bitLength ((factor * (start + mid)) ^^^ (factor * (mid + finish)))

/-- Merges a run with those before it that lie at the depth or deeper. -/
def collapse (quick : List α → Except Disorder (List α)) (room depth : Nat) :
    List (Run α × Nat) → Run α → Except Disorder (List (Run α × Nat) × Run α)
  | [], run => .ok ([], run)
  | (left, d) :: stack, run =>
    if depth ≤ d then do
      let merged ← mergeRuns less quick room left run
      collapse quick room depth stack merged
    else .ok ((left, d) :: stack, run)

/-- Merges all runs; the stack holds those before the run, which ends at `scanned`. -/
def mergeAll (quick : List α → Except Disorder (List α)) (room factor : Nat) :
    List (Run α × Nat) → Run α → Nat → List (Run α) → Except Disorder (Run α)
  | stack, run, _, [] => stack.foldlM (fun run e => mergeRuns less quick room e.1 run) run
  | stack, run, scanned, next :: rest => do
    let finish := scanned + next.elems.length
    let depth := mergeDepth factor (scanned - run.elems.length) scanned finish
    let (stack, run) ← collapse less quick room depth stack run
    mergeAll quick room factor ((run, depth) :: stack) next finish rest

/-- A number near the square root, from the logarithm. -/
def nearSqrt (n : Nat) : Nat :=
  let shift := (1 + n.log2) / 2
  (Nat.pow 2 shift + n / Nat.pow 2 shift) / 2

/-- The length from which a run that is there is taken. -/
def goodLength (n : Nat) : Nat :=
  if n ≤ 4096 then min (n - n / 2) 64 else nearSqrt n

/-- Sorts by merging runs. -/
def sortRuns (room : Nat) (eager : Bool) (quick : List α → Except Disorder (List α))
    (v : List α) : Except Disorder (List α) := do
  let factor := (Nat.pow 2 62 + v.length - 1) / v.length
  match ← runsOf less ⟨goodLength v.length, eager, quick⟩ v with
  | [] => return []
  | run :: rest =>
    let run ← mergeAll less quick room factor [] run run.elems.length rest
    run.settle quick

/-! ## Quicksort -/

/-- The place of the middle one of three elements. -/
def median (v : List α) (a b c : Fin v.length) : Fin v.length :=
  let x := less (v.get a) (v.get b)
  if x == less (v.get a) (v.get c) then
    if less (v.get b) (v.get c) != x then c else b
  else a

/-- The place of an element near the middle of the `8 * n` elements from place `a` on. -/
def pseudoMedian (v : List α) (n a : Nat) (hn : 0 < n) (h : a + 8 * n ≤ v.length) :
    Fin v.length :=
  let within (b : Nat) (hb : b ≤ a + 7 * n) : Fin v.length :=
    if hsmall : n < 8 then ⟨b, by omega⟩ else pseudoMedian v (n / 8) b (by omega) (by omega)
  median less v (within a (by omega)) (within (a + 4 * n) (by omega))
    (within (a + 7 * n) (by omega))
termination_by n

/-- The place of the pivot of a list that is not short. -/
def pivotPlace (v : List α) (h : ¬ v.length ≤ shortLength) : Fin v.length :=
  have hlong : ¬ v.length ≤ 32 := h
  pseudoMedian less v (v.length / 8) 0 (by omega) (by omega)

/-- The elements that go to the left and the others, both in their order.  The pivot, at place `i`,
is not tested. -/
def partitionAt (goesLeft : α → Bool) (pivotLeft : Bool) (v : List α) (i : Nat) :
    List α × List α :=
  let tagged := v.zipIdx.partition fun e => if e.2 = i then pivotLeft else goesLeft e.1
  (tagged.1.map (·.1), tagged.2.map (·.1))

/-- Sorts by partitions.  No element is less than the ancestor.  After `limit` partitions in a row
what is left is sorted by merging runs. -/
def quicksort (room : Nat) : Nat → Option α → List α → Except Disorder (List α)
  | 0, _, v =>
    if v.length ≤ shortLength then sortShort less v
    else sortRuns less room true (sortShort less) v
  | limit + 1, ancestor, v =>
    if h : v.length ≤ shortLength then sortShort less v
    else
      let place := pivotPlace less v h
      let pivot := v.get place
      let (low, high) := partitionAt (less · pivot) false v place
      -- nothing is less than the pivot, so what equals it is in place
      if ancestor.any (!less · pivot) || low.isEmpty then do
        let (same, above) := partitionAt (!less pivot ·) true v place
        let above ← quicksort room limit none above
        return same ++ above
      else do
        let high ← quicksort room limit (some pivot) high
        let low ← quicksort room limit ancestor low
        return low ++ high

/-! ## The sort -/

/-- How many elements of sixteen bytes fit into eight million bytes. -/
def fullRoom : Nat := 500000

/-- Sorts a list; `less` tells whether its first argument belongs before the second. -/
def sort (v : List α) : Except Disorder (List α) :=
  let n := v.length
  if n ≤ 20 then .ok (insertAll less [] v)
  else
    let room := max (max (n - n / 2) (min n fullRoom)) 48
    let quick (w : List α) := quicksort less room (2 * w.length.log2) none w
    sortRuns less room (n ≤ 2 * shortLength) quick v

end StableSort
end LogLens
