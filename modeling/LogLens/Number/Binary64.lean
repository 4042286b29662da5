/-
Binary floating-point numbers of 64 bits.

A number other than NaN has a sign and a rank: the position of its absolute value among the
non-negative values in ascending order, zero having rank 0.  Ranks below `2 ^ 52` are the multiples
of the least positive value; from there on every `2 ^ 52` ranks double the spacing; the last rank
is infinity.  So the order of numbers is that of their signed ranks, and the nearest number to a
quotient is found by integer arithmetic alone.
-/
namespace LogLens

namespace Binary64

/-- How many ranks share one spacing. -/
def span : Nat := 0x10000000000000

def infinityRank : Nat := 2047 * span

end Binary64

inductive Binary64 where
  | nan
  | value (negative : Bool) (rank : Fin (Binary64.infinityRank + 1))
  deriving DecidableEq

namespace Binary64

/-! ## Absolute values -/

/-- The absolute value of a finite rank is `significand r * 2 ^ exponent r`. -/
def significand (r : Nat) : Nat :=
  if r < span then r else span + r % span

def exponent (r : Nat) : Int :=
  if r < span then -1074 else (r / span : Nat) - 1075

/-- A binary exponent `e` for which `num / den / 2 ^ e` lies between `2 ^ 51` and `2 ^ 53`, but no
less than the exponent of the least positive value. -/
def roundingExponent (num den : Nat) : Int :=
  let e : Int := (num.log2 : Int) - den.log2 - 52
  let q := if 0 ≤ e then num / (den <<< e.toNat) else (num <<< (-e).toNat) / den
  max (-1074) (if q < span then e - 1 else e)

/-- The quotient rounded to the nearest integer, a tie to the even one. -/
def roundQuotient (num den : Nat) : Nat :=
  let q := num / den
  let r := num % den
  if 2 * r < den then q
  else if den < 2 * r then q + 1
  else if q % 2 = 0 then q else q + 1

/-- The rank nearest to `num / den`, a tie to the even one.  Everything from half a step above the
largest finite value is infinity. -/
def rankOfRatio (num den : Nat) : Fin (infinityRank + 1) :=
  if num = 0 then 0
  else
    let e := roundingExponent num den
    let q := if 0 ≤ e then roundQuotient num (den <<< e.toNat)
      else roundQuotient (num <<< (-e).toNat) den
    ⟨min infinityRank ((e + 1074).toNat * span + q), by omega⟩

/-! ## Numbers from integers and quotients -/

def signedZero (negative : Bool) : Binary64 := .value negative ⟨0, Nat.succ_pos _⟩

def zero : Binary64 := signedZero false

def infinity (negative : Bool) : Binary64 :=
  .value negative ⟨infinityRank, by omega⟩

/-- The number nearest to `num / den` with the given sign; `den` is not zero. -/
def ofRatio (negative : Bool) (num den : Nat) : Binary64 :=
  .value negative (rankOfRatio num den)

def ofNat (n : Nat) : Binary64 := ofRatio false n 1

def ofInt (n : Int) : Binary64 := ofRatio (n < 0) n.natAbs 1

/-- The number nearest to `significand * 10 ^ exponent`.  Exponents far outside the range of the
type are answered without building the power. -/
def ofDecimal (negative : Bool) (significand : Nat) (exponent : Int) : Binary64 :=
  if significand = 0 then signedZero negative
  else if 400 < exponent then infinity negative
  else if exponent + (significand.log2 : Int) < -1200 then signedZero negative
  else if 0 ≤ exponent then ofRatio negative (significand * Nat.pow 10 exponent.toNat) 1
  else ofRatio negative significand (Nat.pow 10 (-exponent).toNat)

/-! ## Order -/

/-- The signed rank, by which numbers are ordered.  NaN has none; both zeros have 0. -/
def key? : Binary64 → Option Int
  | nan => none
  | value negative rank => some (if negative then -(rank : Nat) else (rank : Nat))

/-- How two numbers compare, if neither is NaN. -/
def compare? (x y : Binary64) : Option Ordering :=
  match x.key?, y.key? with
  | some a, some b => some (compare a b)
  | _, _ => none

/-- Numeric equality: NaN differs from itself and the zeros are equal. -/
def numEq (x y : Binary64) : Bool :=
  x.compare? y == some .eq

def numLe (x y : Binary64) : Bool :=
  x.compare? y == some .lt || x.compare? y == some .eq

def numLt (x y : Binary64) : Bool :=
  x.compare? y == some .lt

def isFinite : Binary64 → Bool
  | nan => false
  | value _ rank => rank < infinityRank

/-! ## Arithmetic -/

def neg : Binary64 → Binary64
  | nan => nan
  | value negative rank => value (!negative) rank

/-- A finite number as an integer times a power of two. -/
def scaled (negative : Bool) (rank : Nat) : Int × Int :=
  (if negative then -(significand rank : Int) else significand rank, exponent rank)

/-- The number nearest to `m * 2 ^ e`; `negative` is the sign of a zero. -/
def ofScaled (negative : Bool) (m e : Int) : Binary64 :=
  let sign := if m = 0 then negative else m < 0
  if 0 ≤ e then ofRatio sign (m.natAbs <<< e.toNat) 1
  else ofRatio sign m.natAbs (1 <<< (-e).toNat)

def add : Binary64 → Binary64 → Binary64
  | value s r, value t q =>
    if r < infinityRank then
      if q < infinityRank then
        let (m, e) := scaled s r
        let (n, f) := scaled t q
        let g := min e f
        ofScaled (s && t) (m * (1 <<< (e - g).toNat : Nat) + n * (1 <<< (f - g).toNat : Nat)) g
      else value t q
    else if q < infinityRank ∨ s = t then value s r else nan
  | _, _ => nan

def mul : Binary64 → Binary64 → Binary64
  | value s r, value t q =>
    if r < infinityRank ∧ q < infinityRank then
      ofScaled (s != t) ((scaled s r).1 * (scaled t q).1) (exponent r + exponent q)
    else if r = 0 ∨ q = 0 then nan
    else infinity (s != t)
  | _, _ => nan

def div : Binary64 → Binary64 → Binary64
  | value s r, value t q =>
    if r < infinityRank then
      if q < infinityRank then
        if q = 0 then if r = 0 then nan else infinity (s != t)
        else
          let e := exponent r - exponent q
          if 0 ≤ e then ofRatio (s != t) (significand r <<< e.toNat) (significand q)
          else ofRatio (s != t) (significand r) (significand q <<< (-e).toNat)
      else value (s != t) 0
    else if q < infinityRank then infinity (s != t) else nan
  | _, _ => nan

/-! ## Integers from numbers -/

/-- The absolute value of a finite number without its fraction. -/
def wholePart (r : Nat) : Nat :=
  let e := exponent r
  if 0 ≤ e then significand r <<< e.toNat else significand r >>> (-e).toNat

/-- The nearest integer to a finite number, halves away from zero. -/
def nearestInt (negative : Bool) (r : Nat) : Int :=
  let e := exponent r
  let n := if 0 ≤ e then significand r <<< e.toNat
    else (2 * significand r + (1 <<< (-e).toNat)) / (1 <<< ((-e).toNat + 1))
  if negative then -(n : Int) else n

/-- The nearest integer, halves away from zero; none for NaN and the infinities. -/
def round? : Binary64 → Option Int
  | nan => none
  | value negative rank => if rank < infinityRank then some (nearestInt negative rank) else none

end Binary64
end LogLens
