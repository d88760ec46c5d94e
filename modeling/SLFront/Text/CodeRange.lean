/-!
# Sets of characters given by code point ranges

A character property that comes as data is a list of inclusive ranges of code points, in ascending
order.
-/
namespace SLFront.Text

/-- The code points from `first` to `last`, both included. -/
structure CodeRange where
  first : Nat
  last : Nat
deriving DecidableEq, Repr

namespace CodeRange

/-- Whether a character lies in the range. -/
def contains (r : CodeRange) (c : Char) : Bool :=
  r.first ≤ c.toNat && c.toNat ≤ r.last

/-- Whether a character lies in one of the ranges. -/
def anyContains (rs : List CodeRange) (c : Char) : Bool :=
  rs.any (·.contains c)

end CodeRange
end SLFront.Text
