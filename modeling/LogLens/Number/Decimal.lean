/-
Decimal digits of binary numbers.

The shortest text of a number has the fewest digits that read back to it, and among those the
nearest to its value.  A decimal reads back when it lies in the interval of reals that round to the
number; the ends belong to it when the number's rank is even.  All comparisons are made exactly,
on integers over one common denominator.
-/
import LogLens.Number.Binary64

namespace LogLens

/-- The decimal `digits * 10 ^ exponent`. -/
structure Decimal where
  digits : Nat
  exponent : Int
  deriving DecidableEq

namespace Decimal

/-- How many decimal digits a number has; zero has none. -/
def digitCount (n : Nat) : Nat :=
  if n = 0 then 0 else (Nat.toDigits 10 n).length

/-- What to do with a value halfway between two decimals. -/
inductive Tie where
  | up
  | toEven

/-! ## The interval that rounds to a number -/

/-- An absolute value and the interval that rounds to it, as multiples of `2 ^ scale`. -/
structure Rounding where
  low : Nat
  mid : Nat
  high : Nat
  scale : Int
  /-- Whether the ends round to the value too. -/
  closed : Bool

/-- Below a power of two the spacing is half of that above it. -/
def rounding (r : Nat) : Rounding :=
  let m := Binary64.significand r
  let tight := m = Binary64.span ∧ Binary64.span < r
  { low := 4 * m - (if tight then 1 else 2)
    mid := 4 * m
    high := 4 * m + 2
    scale := Binary64.exponent r - 2
    closed := m % 2 = 0 }

/-- `a * 2 ^ e` over `10 ^ k`, as a quotient. -/
def overPowerOfTen (a : Nat) (e k : Int) : Nat × Nat :=
  ((if 0 ≤ e then a <<< e.toNat else a) * (if k < 0 then Nat.pow 10 (-k).toNat else 1),
   (if e < 0 then 1 <<< (-e).toNat else 1) * (if 0 ≤ k then Nat.pow 10 k.toNat else 1))

/-- Whether `n * 10 ^ k` rounds to the value. -/
def readsBack (i : Rounding) (n : Nat) (k : Int) : Bool :=
  let (low, den) := overPowerOfTen i.low i.scale k
  let (high, _) := overPowerOfTen i.high i.scale k
  if i.closed then low ≤ n * den && n * den ≤ high else low < n * den && n * den < high

/-- Of the two multiples of `10 ^ k` around the value, the nearer one that reads back. -/
def candidate? (tie : Tie) (i : Rounding) (k : Int) : Option Nat :=
  let (num, den) := overPowerOfTen i.mid i.scale k
  let q := num / den
  match readsBack i q k, readsBack i (q + 1) k with
  | false, false => none
  | true, false => some q
  | false, true => some (q + 1)
  | true, true =>
    let twice := 2 * (num % den)
    if twice < den then some q
    else if den < twice then some (q + 1)
    else match tie with
      | .up => some (q + 1)
      | .toEven => if q % 2 = 0 then some q else some (q + 1)

/-- The decimal exponent of the value's first digit: the value is at least `10 ^ e` and less than
`10 ^ (e + 1)`. -/
def leadingExponent (i : Rounding) : Int :=
  let (num, den) := overPowerOfTen i.mid i.scale 0
  if den ≤ num then (digitCount (num / den) : Int) - 1
  else
    -- `den / num` has as many digits as the value has places before its first one
    let n := digitCount (den / num)
    if Nat.pow 10 n * num < den * 10 then -(n : Int) else -(n : Int) + 1

/-- Tries `digits`, `digits + 1`, … digits, `fuel` times. -/
def search (tie : Tie) (i : Rounding) (top : Int) : Nat → Nat → Decimal
  | 0, digits =>
    let k := top + 1 - digits
    let (num, den) := overPowerOfTen i.mid i.scale k
    ⟨num / den, k⟩
  | fuel + 1, digits =>
    let k := top + 1 - digits
    match candidate? tie i k with
    | some n => if n = 0 then search tie i top fuel (digits + 1) else ⟨n, k⟩
    | none => search tie i top fuel (digits + 1)

/-- Removes the zeros at the end of the digits. -/
def stripZeros : Nat → Decimal → Decimal
  | 0, d => d
  | fuel + 1, d =>
    if d.digits ≠ 0 ∧ d.digits % 10 = 0 then stripZeros fuel ⟨d.digits / 10, d.exponent + 1⟩ else d

/-- The shortest decimal that reads back to a finite absolute value other than zero.  Seventeen
digits are always enough. -/
def shortest (tie : Tie) (r : Nat) : Decimal :=
  let i := rounding r
  stripZeros 20 (search tie i (leadingExponent i) 17 1)

end Decimal
end LogLens
