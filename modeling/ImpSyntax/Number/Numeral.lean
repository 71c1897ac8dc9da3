import ImpSyntax.Number.Decimal

/-!
# Numerals

The texts that denote a number: an optional sign, then `nan`, `inf` or `infinity` in letters of any
case, or a decimal.  A decimal has digits with at most one point among them, and may go on with an
exponent: the letter `e` in either case, an optional sign and digits.  `Numeral.read?` reads a whole
text as a numeral and `Numeral.value` gives the binary64 value it denotes; `numberValue?` joins the
two.
-/

namespace ImpSyntax

/-- What a numeral denotes, before rounding. -/
inductive Numeral where
  /-- No number. -/
  | nan
  /-- An infinity with its sign. -/
  | infinite (negative : Bool)
  /-- A finite number, given exactly. -/
  | decimal (value : Decimal)
deriving DecidableEq, Repr

namespace Numeral

/-- The number written by a run of decimal digits. -/
def digitsValue (digits : List Char) : Nat :=
  digits.foldl (fun n c => 10 * n + (c.toNat - '0'.toNat)) 0

/-- Split off an optional sign; the answer says first whether it is a minus. -/
def splitSign : List Char → Bool × List Char
  | '-' :: s => (true, s)
  | '+' :: s => (false, s)
  | s => (false, s)

/-- Split off an optional point and the digits after it. -/
def splitFraction : List Char → List Char × List Char
  | '.' :: s => s.span Char.isDigit
  | s => ([], s)

/-- Read an exponent that makes up a whole text; the empty text stands for the exponent zero. -/
def readExponent? : List Char → Option Int
  | [] => some 0
  | mark :: s =>
    let (negative, digits) := splitSign s
    if (mark = 'e' ∨ mark = 'E') ∧ digits ≠ [] ∧ digits.all Char.isDigit then
      some (if negative then -(digitsValue digits : Int) else digitsValue digits)
    else
      none

/-- Read a decimal without its sign.  One side of the point may lack digits, but not both. -/
def readDecimal? (negative : Bool) (s : List Char) : Option Decimal :=
  let (whole, s) := s.span Char.isDigit
  let (fraction, s) := splitFraction s
  if whole = [] ∧ fraction = [] then
    none
  else
    (readExponent? s).map fun exponent =>
      ⟨negative, digitsValue (whole ++ fraction), exponent - fraction.length⟩

/-- Read a whole text as a numeral. -/
def read? (s : List Char) : Option Numeral :=
  let (negative, body) := splitSign s
  let word := body.map Char.toLower
  if word = ['n', 'a', 'n'] then
    some .nan
  else if word = ['i', 'n', 'f'] ∨ word = ['i', 'n', 'f', 'i', 'n', 'i', 't', 'y'] then
    some (.infinite negative)
  else
    (readDecimal? negative body).map .decimal

/-- The binary64 value that a numeral denotes. -/
def value : Numeral → Binary64
  | nan => .nan
  | infinite negative => .infinite negative
  | decimal d => d.toBinary64

end Numeral

/-- The value of the text of a number, if the text is a numeral. -/
def numberValue? (text : String) : Option Binary64 :=
  (Numeral.read? text.toList).map Numeral.value

end ImpSyntax
