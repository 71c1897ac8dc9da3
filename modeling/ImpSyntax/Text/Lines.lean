/-!
# The lines of a text

A line ends at a line feed, which does not belong to it; a carriage return right before that line
feed belongs to the break as well.  Text after the last break is a line if there is any, so a final
break opens no further line.  `lines` lists them and `line?` looks one up by its number.
-/

namespace ImpSyntax

/-- The number of a line.  The first line has number one, and the count wraps at `2 ^ 32`. -/
abbrev LineNumber := UInt32

namespace Text

/-- The number of line feeds in a text, as an increment of a line number. -/
def lineBreaks (s : List Char) : LineNumber :=
  UInt32.ofNat (s.count '\n')

/-- Put a character in front of the first line, which is opened if there is none. -/
def consLine (c : Char) : List (List Char) → List (List Char)
  | [] => [[c]]
  | line :: rest => (c :: line) :: rest

/-- The lines of a text, without their breaks. -/
def lines : List Char → List (List Char)
  | [] => []
  | '\n' :: s => [] :: lines s
  | '\r' :: '\n' :: s => [] :: lines s
  | c :: s => consLine c (lines s)

/-- The line with the given number, if the text has it.  No line has number zero. -/
def line? (s : List Char) (number : LineNumber) : Option (List Char) :=
  if number = 0 then none else (lines s)[number.toNat - 1]?

end Text

end ImpSyntax
