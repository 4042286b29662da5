/-
Sets of characters given by ranges of code points.

The standard sets are long lists of ranges in ascending order.  They are plain data, so a
membership test reduces in the kernel and needs no table of its own at run time.
-/
namespace LogLens

/-- A set of characters, as the inclusive ranges of code points it is made of. -/
structure CharSet where
  ranges : List (Nat × Nat)

namespace CharSet

def contains (s : CharSet) (c : Char) : Bool :=
  s.ranges.any fun r => r.1 ≤ c.toNat && c.toNat ≤ r.2

end CharSet
end LogLens
