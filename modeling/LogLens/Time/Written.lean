/-
How instants are written.

Every text is that of RFC 3339 in universal time, ending in `Z`; they differ in the digits of the
second's fraction.
-/
import LogLens.Time.Instant

namespace LogLens
namespace Instant

/-- A number with zeros in front of it up to a width. -/
def padded (width n : Nat) : String :=
  let text := toString n
  String.ofList (List.replicate (width - text.length) '0') ++ text

/-- Years of four digits stand as they are, all others have a sign. -/
def yearText (year : Int) : String :=
  if 0 ≤ year ∧ year ≤ 9999 then padded 4 year.toNat
  else (if year < 0 then "-" else "+") ++ padded 4 year.natAbs

/-- The instant with the given text behind its seconds. -/
def written (c : Civil) (fraction : String) : String :=
  yearText c.date.year ++ "-" ++ padded 2 c.date.month ++ "-" ++ padded 2 c.date.day ++ "T" ++
    padded 2 c.hour ++ ":" ++ padded 2 c.minute ++ ":" ++ padded 2 c.second ++ fraction ++ "Z"

/-- With three digits of the second's fraction, the rest cut off. -/
def toMillisText (t : Instant) : String :=
  let c := t.civil
  written c ("." ++ padded 3 (c.nanos / 1000000))

/-- With as many groups of three digits as the fraction needs, and none for a whole second. -/
def toShortText (t : Instant) : String :=
  let c := t.civil
  written c <|
    if c.nanos = 0 then ""
    else if c.nanos % 1000000 = 0 then "." ++ padded 3 (c.nanos / 1000000)
    else if c.nanos % 1000 = 0 then "." ++ padded 6 (c.nanos / 1000)
    else "." ++ padded 9 c.nanos

/-- With all nine digits. -/
def toFullText (t : Instant) : String :=
  let c := t.civil
  written c ("." ++ padded 9 c.nanos)

end Instant
end LogLens
