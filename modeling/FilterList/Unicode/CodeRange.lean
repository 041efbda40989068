/-!
# Ranges of code points

The character properties are tables of inclusive ranges of code points. The
ranges of a table are increasing, and no two of them meet or touch.
-/
namespace FilterList.Unicode

/-- The code points from `first` to `last`, both included. -/
structure CodeRange where
  first : Nat
  last : Nat
  deriving DecidableEq, Repr

namespace CodeRange

/-- Whether one of the ranges holds the code point of `c`. -/
def contains (table : List CodeRange) (c : Char) : Bool :=
  table.any fun r => r.first ≤ c.toNat && c.toNat ≤ r.last

end CodeRange

end FilterList.Unicode
