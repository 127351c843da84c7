/-!
# Sets of characters

A set of characters given by the code points where membership changes, in rising
order: the first one is in the set, the second one is the first that is not, and
so on.
-/

namespace TreeFormat.Text

/-- The code points where membership in a set of characters changes. -/
structure CharSet where
  changes : List Nat

/-- Whether a character is in the set: an odd number of changes come at or
before it. -/
def CharSet.contains (set : CharSet) (c : Char) : Bool :=
  (set.changes.takeWhile (· ≤ c.toNat)).length % 2 == 1

end TreeFormat.Text
