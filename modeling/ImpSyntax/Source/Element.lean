import ImpSyntax.Text.Blank
import ImpSyntax.Token.Kind

/-!
# Lexical elements

A source is a sequence of elements: gaps, which are runs of blanks or comments, and lexemes, which
become tokens.  `front?` finds the element that a text starts with, always the longest one.  Its
answer counts the characters of the element after the first, so an element is never empty.

* A line comment runs from `//` up to the end of the line; the line feed is not part of it.
* A block comment runs from `/*` to the first `*/` after that.
* A word is a letter or an underscore, followed by letters, digits and underscores.
* A number is a run of digits, which a point and a second run of digits may follow.
* A symbol has one or two characters, and two are preferred to one.

Letters and digits are those of ASCII, blanks those of Unicode.
-/

namespace ImpSyntax

/-- What a lexical element is for. -/
inductive Role where
  /-- Blanks or a comment: it separates lexemes and is dropped. -/
  | gap
  /-- The text of a token of the given kind. -/
  | lexeme (kind : Kind)
deriving DecidableEq, Repr

namespace Element

/-! ## Character classes -/

/-- Whether a character may start a word. -/
def isWordStart (c : Char) : Bool :=
  c.isAlpha || c == '_'

/-- Whether a character may continue a word. -/
def isWordPart (c : Char) : Bool :=
  c.isAlphanum || c == '_'

/-! ## The characters after the first -/

/-- The length of a block comment without its opening, if the text closes it. -/
def commentLength? : List Char → Option Nat
  | [] => none
  | '*' :: '/' :: _ => some 2
  | _ :: s => (commentLength? s).map (· + 1)

/-- The length of the longest prefix of characters of a class. -/
def runLength (p : Char → Bool) (s : List Char) : Nat :=
  (s.takeWhile p).length

/-- The length of a point with the digits after it; zero if a digit does not follow the point. -/
def fractionLength : List Char → Nat
  | '.' :: d :: s => if d.isDigit then 2 + runLength Char.isDigit s else 0
  | _ => 0

/-- The length of the rest of a number whose first digit has been read. -/
def numberLength (s : List Char) : Nat :=
  let digits := runLength Char.isDigit s
  digits + fractionLength (s.drop digits)

/-! ## The first element -/

/-- The gap that a character starts with the text after it: blanks or a closed comment. -/
def gap? (c : Char) (s : List Char) : Option Nat :=
  if Text.isBlank c then
    some (runLength Text.isBlank s)
  else
    match c, s with
    | '/', '/' :: s => some (1 + runLength (· != '\n') s)
    | '/', '*' :: s => (commentLength? s).map (1 + ·)
    | _, _ => none

/-- Whether a character and the text after it open a block comment. -/
def opensComment (c : Char) (s : List Char) : Bool :=
  c == '/' && s.head? == some '*'

/-- The symbol that a character starts with the text after it. -/
def symbol? (c : Char) (s : List Char) : Option (Kind × Nat) :=
  match Kind.ofSymbol? (c :: s.take 1) with
  | some kind => some (kind, (s.take 1).length)
  | none => (Kind.ofSymbol? [c]).map (·, 0)

/-- The lexeme that a character starts with the text after it: a word, a number or a symbol. -/
def lexeme? (c : Char) (s : List Char) : Option (Kind × Nat) :=
  if isWordStart c then
    some (Kind.ofWord (c :: s.takeWhile isWordPart), runLength isWordPart s)
  else if c.isDigit then
    some (.number, numberLength s)
  else
    symbol? c s

/-- The element that a character starts with the text after it.  There is none where a comment is
opened and not closed, or where the character starts no lexeme. -/
def front? (c : Char) (s : List Char) : Option (Role × Nat) :=
  match gap? c s with
  | some more => some (.gap, more)
  | none =>
    if opensComment c s then none
    else (lexeme? c s).map fun (kind, more) => (.lexeme kind, more)

end Element

end ImpSyntax
