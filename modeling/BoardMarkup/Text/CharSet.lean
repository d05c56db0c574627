/-! Sets of characters given by the code points at which they begin and end. -/
namespace BoardMarkup.Text

/--
A set of characters. The code points ascend; the set is entered at the first, left at the second, and so
on.
-/
structure CharSet where
  bounds : List Nat

/-- A character is inside when an odd number of bounds is not above it. -/
def CharSet.contains (s : CharSet) (c : Char) : Bool :=
  (s.bounds.takeWhile (· ≤ c.toNat)).length % 2 == 1

end BoardMarkup.Text
