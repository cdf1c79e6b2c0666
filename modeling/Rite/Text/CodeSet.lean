/-!
# Sets of code points

A property of characters is a list of closed ranges of code points, in ascending order.  Membership
is decided by looking through the ranges, which keeps it open to evaluation in proofs.
-/

namespace Rite

/-- A set of code points: closed ranges in ascending order. -/
abbrev CodeSet := List (Nat × Nat)

/-- Whether the code point of `c` lies in one of the ranges. -/
def CodeSet.has (set : CodeSet) (c : Char) : Bool :=
  set.any fun (first, last) => first ≤ c.toNat && c.toNat ≤ last

end Rite
