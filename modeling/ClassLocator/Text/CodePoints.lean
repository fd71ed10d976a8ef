/-!
Sets of code points, kept as the sorted list of the places where membership changes. A code point
belongs to the set exactly when an odd number of those places lies at or below it.
-/

namespace ClassLocator.Text

/-- A set of code points given by its boundaries in increasing order: the first one enters the
set, the second one leaves it, and so on. -/
structure CodePoints where
  boundaries : Array Nat

namespace CodePoints

def rank (s : CodePoints) (n : Nat) : Nat := go 0 s.boundaries.size
where
  /-- All places below `lo` are at or below `n`, none from `hi` on is. -/
  go (lo hi : Nat) : Nat :=
    if lo < hi then
      let mid := (lo + hi) / 2
      if s.boundaries.getD mid 0 ≤ n then go (mid + 1) hi else go lo mid
    else lo
  termination_by hi - lo

def contains (s : CodePoints) (c : Char) : Bool := s.rank c.toNat % 2 == 1

end CodePoints

end ClassLocator.Text
