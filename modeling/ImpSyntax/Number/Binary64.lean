/-!
# Binary64 numbers

The values of number literals: the IEEE 754 format with 53 significant bits.  A finite value is a
sign and a `rank`, its place in the ascending order of all finite magnitudes.  Rank `0` is zero, the
ranks below `2 ^ 52` are the subnormal magnitudes, and every further block of `2 ^ 52` ranks is a
binade.  The rank is also what the format stores in its lower 63 bits.

* `Binary64.magnitude` is the magnitude of a rank, counted in units of `2 ^ -1074`;
* `Binary64.bits` is the stored form of a value;
* `Binary64.equal` is the equality of numbers: no NaN equals anything, and the two zeros are equal.
-/

namespace ImpSyntax

/-- The number of finite magnitudes of the format. -/
def finiteRanks : Nat :=
  2047 * Nat.pow 2 52

/-- A value of the binary64 format. -/
inductive Binary64 where
  /-- No number.  The format's many NaNs are one value here. -/
  | nan
  /-- An infinity with its sign. -/
  | infinite (negative : Bool)
  /-- The finite value with the given sign and the given place among the magnitudes. -/
  | finite (negative : Bool) (rank : Fin finiteRanks)
deriving DecidableEq, Repr

namespace Binary64

/-- The magnitude of a rank, counted in units of `2 ^ -1074`.  Below `2 ^ 53` the units are the
ranks; further up, each binade spaces its magnitudes twice as far as the one before it. -/
def magnitude (rank : Nat) : Nat :=
  if rank < Nat.pow 2 53 then rank
  else (Nat.pow 2 52 + rank % Nat.pow 2 52) * Nat.pow 2 (rank / Nat.pow 2 52 - 1)

/-- The stored form of a value: a sign bit, then the rank.  Infinity takes the rank that follows
the last finite one, and NaN is stored in its customary quiet form. -/
def bits : Binary64 → UInt64
  | nan => UInt64.ofNat (finiteRanks + Nat.pow 2 51)
  | infinite negative => UInt64.ofNat (negative.toNat * Nat.pow 2 63 + finiteRanks)
  | finite negative rank => UInt64.ofNat (negative.toNat * Nat.pow 2 63 + rank.val)

/-- Whether two values are equal as numbers. -/
def equal : Binary64 → Binary64 → Bool
  | infinite a, infinite b => a == b
  | finite a r, finite b q => r.val == q.val && (a == b || r.val == 0)
  | _, _ => false

end Binary64

end ImpSyntax
