/-
How numbers are written.

Two notations are in use.  The plain one, for fields and their values, never has an exponent and
writes whole numbers without a fraction.  That of JSON documents keeps `.0` on whole numbers and
has an exponent for very large and very small values.
-/
import LogLens.Number.Decimal

namespace LogLens
namespace Notation

def zeros (n : Nat) : String :=
  String.ofList (List.replicate n '0')

/-- The digits with a point so that they denote `digits * 10 ^ exponent`; whole numbers have no
point. -/
def positional (d : Decimal) : String :=
  let text := toString d.digits
  if 0 ≤ d.exponent then text ++ zeros d.exponent.toNat
  else
    let places := (-d.exponent).toNat
    if places < text.length then
      let cut := text.length - places
      String.ofList (text.toList.take cut) ++ "." ++ String.ofList (text.toList.drop cut)
    else "0." ++ zeros (places - text.length) ++ text

def signText (negative : Bool) : String :=
  if negative then "-" else ""

/-! ## Plain notation -/

/-- The number as a field shows it: the shortest digits that read back, without an exponent.  A
value halfway between two shortest decimals takes the larger one. -/
def plain : Binary64 → String
  | .nan => "NaN"
  | .value negative rank =>
    signText negative ++
      if rank.val = 0 then "0"
      else if rank.val < Binary64.infinityRank then positional (Decimal.shortest .up rank)
      else "inf"

/-! ## JSON notation -/

/-- The digits as one digit, the others behind a point, and a power of ten. -/
def scientific (d : Decimal) : String :=
  let text := toString d.digits
  let power := d.exponent + ((text.length : Int) - 1)
  let head := String.ofList (text.toList.take 1)
  let tail := String.ofList (text.toList.drop 1)
  head ++ (if tail.isEmpty then "" else "." ++ tail) ++ "e" ++
    (if power < 0 then "-" else "+") ++ toString power.natAbs

/-- The number in a JSON document.  Powers of ten from -5 to 15 are written out; NaN and the
infinities have no text there but `null`. -/
def json : Binary64 → String
  | .nan => "null"
  | .value negative rank =>
    if rank.val = 0 then signText negative ++ "0.0"
    else if rank.val < Binary64.infinityRank then
      let d := Decimal.shortest .toEven rank
      let power := d.exponent + ((toString d.digits).length - 1 : Int)
      signText negative ++
        if -5 ≤ power ∧ power < 16 then
          if 0 ≤ d.exponent then positional d ++ ".0" else positional d
        else scientific d
    else "null"

/-! ## Fixed places -/

/-- A finite number with exactly `places` digits behind the point, rounded to nearest with a tie to
the even digit. -/
def fixed (places : Nat) : Binary64 → String
  | .nan => "NaN"
  | .value negative rank =>
    signText negative ++
      if rank.val < Binary64.infinityRank then
        let (num, den) :=
          Decimal.overPowerOfTen (Binary64.significand rank) (Binary64.exponent rank) (-places)
        let n := Binary64.roundQuotient num den
        let whole := toString (n / Nat.pow 10 places)
        let part := toString (n % Nat.pow 10 places)
        if places = 0 then whole
        else whole ++ "." ++ zeros (places - part.length) ++ part
      else "inf"

end Notation
end LogLens
