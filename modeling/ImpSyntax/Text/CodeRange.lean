/-!
# Ranges of code points

A character class is given as a list of closed ranges of code points.  `CodeRange.covers` decides
whether a character lies in one of them.
-/

namespace ImpSyntax.Text

/-- A closed range of code points, written as its first and its last member. -/
abbrev CodeRange := Nat × Nat

namespace CodeRange

/-- Whether a character lies in the range. -/
def contains (range : CodeRange) (c : Char) : Bool :=
  decide (range.1 ≤ c.toNat) && decide (c.toNat ≤ range.2)

/-- Whether a character lies in one of the ranges. -/
def covers (ranges : List CodeRange) (c : Char) : Bool :=
  ranges.any (contains · c)

end CodeRange

end ImpSyntax.Text
