import ImpSyntax.Number.Binary64

/-!
# Rounding to binary64

A quotient of natural numbers is rounded to the nearest magnitude of the format, and a quotient
half way between two of them to the one with the even rank.  `Binary64.nearestRank` computes the
rank of that magnitude in exact arithmetic: it finds the binade of the quotient, rounds the quotient
to a whole multiple of the spacing there and counts the ranks below.  Rounding up into the next
binade needs no case of its own, for ranks run on across the border.
-/

namespace ImpSyntax

/-- The quotient of two numbers, rounded to the nearest integer and from half way to the even
one. -/
def roundDiv (num den : Nat) : Nat :=
  if den < 2 * (num % den) ∨ (2 * (num % den) = den ∧ num / den % 2 = 1) then
    num / den + 1
  else
    num / den

namespace Binary64

/-- The binade of a magnitude of `units` whole units: the number of times the spacing of the ranks
has doubled there. -/
def binade (units : Nat) : Nat :=
  units.log2 - 52

/-- The rank of the magnitude nearest to `num / den`, the ranks being continued upwards as if the
format had no largest exponent. -/
def nearestRank (num den : Nat) : Nat :=
  let scaled := num * Nat.pow 2 1074
  let doublings := binade (scaled / den)
  doublings * Nat.pow 2 52 + roundDiv scaled (den * Nat.pow 2 doublings)

/-- The value nearest to the quotient `num / den` taken with a sign.  A quotient that rounds past
the last finite magnitude becomes an infinity. -/
def nearest (negative : Bool) (num den : Nat) : Binary64 :=
  let rank := nearestRank num den
  if h : rank < finiteRanks then finite negative ⟨rank, h⟩ else infinite negative

/-- The zero with a sign. -/
def zero (negative : Bool) : Binary64 :=
  finite negative ⟨0, by decide⟩

end Binary64

end ImpSyntax
