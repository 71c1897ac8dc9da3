import ImpSyntax.Number.Rounding

/-!
# Decimal numbers

A decimal is a sign, a coefficient and a power of ten.  It denotes the rational
`coefficient * 10 ^ scale` exactly, and `Decimal.toBinary64` rounds that rational.  Scales that
settle the result without arithmetic are sorted out first, so that the size of the numbers in the
computation is bounded by the length of the coefficient and not by the value of the scale.
-/

namespace ImpSyntax

/-- The number `± coefficient * 10 ^ scale`. -/
structure Decimal where
  negative : Bool
  coefficient : Nat
  scale : Int
deriving DecidableEq, Repr

namespace Decimal

/-- The numerator of the magnitude that a decimal denotes. -/
def numerator (d : Decimal) : Nat :=
  d.coefficient * Nat.pow 10 d.scale.toNat

/-- The denominator of the magnitude that a decimal denotes. -/
def denominator (d : Decimal) : Nat :=
  Nat.pow 10 (-d.scale).toNat

/-- Whether the magnitude is certainly past every finite one: it is at least `10 ^ 310`. -/
def isHuge (d : Decimal) : Prop :=
  d.coefficient ≠ 0 ∧ 310 ≤ d.scale

/-- Whether the magnitude is certainly nearer to zero than to any other: it is zero or below
`10 ^ -330`. -/
def isTiny (d : Decimal) : Prop :=
  d.coefficient = 0 ∨ d.scale < -(d.coefficient.log2 + 331 : Int)

instance (d : Decimal) : Decidable d.isHuge :=
  inferInstanceAs (Decidable (_ ∧ _))

instance (d : Decimal) : Decidable d.isTiny :=
  inferInstanceAs (Decidable (_ ∨ _))

/-- The binary64 value nearest to a decimal.  The sign is kept on zero and on infinity. -/
def toBinary64 (d : Decimal) : Binary64 :=
  if d.isHuge then .infinite d.negative
  else if d.isTiny then .zero d.negative
  else .nearest d.negative d.numerator d.denominator

end Decimal

end ImpSyntax
