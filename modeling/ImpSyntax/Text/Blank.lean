import ImpSyntax.Text.CodeRange

/-!
# Blank characters

The Unicode property `White_Space`: the characters that separate lexemes and that are dropped
from both ends of a quoted line.  `isBlank` decides the property and `trim` drops the blanks at
the two ends of a text.
-/

namespace ImpSyntax.Text

/-- The code points with the property `White_Space`, in ascending order. -/
def blankRanges : List CodeRange :=
  [(0x9, 0xd), (0x20, 0x20), (0x85, 0x85), (0xa0, 0xa0), (0x1680, 0x1680), (0x2000, 0x200a),
   (0x2028, 0x2029), (0x202f, 0x202f), (0x205f, 0x205f), (0x3000, 0x3000)]

/-- Whether a character is blank. -/
def isBlank (c : Char) : Bool :=
  CodeRange.covers blankRanges c

/-- A text without the blanks it starts with. -/
def trimLeft (s : List Char) : List Char :=
  s.dropWhile isBlank

/-- A text without the blanks it ends with. -/
def trimRight (s : List Char) : List Char :=
  (trimLeft s.reverse).reverse

/-- A text without the blanks at its two ends. -/
def trim (s : List Char) : List Char :=
  trimRight (trimLeft s)

end ImpSyntax.Text
