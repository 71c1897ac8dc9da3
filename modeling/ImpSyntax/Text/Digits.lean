/-!
# Numbers in text

Line numbers are written in decimal and code points in hexadecimal, both without leading zeros and
the latter in lower case.
-/

namespace ImpSyntax.Text

/-- The decimal digits of a number. -/
def decimalDigits (n : Nat) : List Char :=
  Nat.toDigits 10 n

/-- The hexadecimal digits of a number. -/
def hexDigits (n : Nat) : List Char :=
  Nat.toDigits 16 n

end ImpSyntax.Text
