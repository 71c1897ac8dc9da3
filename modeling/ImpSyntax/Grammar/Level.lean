import ImpSyntax.Token.Kind

/-!
# Levels of precedence

The binary operators that group to the left fall into nine levels.  `Level.loosestFirst` lists them,
from the operators that hold their operands together least to those that do most.
-/

namespace ImpSyntax

/-- A level of precedence among the operators that group to the left. -/
inductive Level where
  | logicalOr
  | logicalAnd
  | bitOr
  | bitXor
  | bitAnd
  | equality
  | comparison
  | sum
  | product
deriving DecidableEq, Repr

namespace Level

/-- The operators of a level. -/
def operators : Level → List Kind
  | logicalOr => [.logicalOr]
  | logicalAnd => [.logicalAnd]
  | bitOr => [.bitOr]
  | bitXor => [.bitXor]
  | bitAnd => [.bitAnd]
  | equality => [.equal, .notEqual]
  | comparison => [.less, .lessEqual, .greater, .greaterEqual]
  | sum => [.plus, .minus]
  | product => [.star, .slash]

/-- All levels, from the loosest to the tightest. -/
def loosestFirst : List Level :=
  [logicalOr, logicalAnd, bitOr, bitXor, bitAnd, equality, comparison, sum, product]

/-- A level and all tighter ones. -/
def andTighter (level : Level) : List Level :=
  loosestFirst.dropWhile (· != level)

end Level

end ImpSyntax
