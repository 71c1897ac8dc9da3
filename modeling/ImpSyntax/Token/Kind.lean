/-!
# Kinds of tokens

The vocabulary of the language: numbers, identifiers, the operators and punctuation of one or two
characters, and five reserved words.  Every kind but the first two has one fixed spelling, its
`lexeme?`.  The spellings are stated once, and reading a symbol or a reserved word back
(`Kind.ofSymbol?`, `Kind.ofWord?`) is a search through them.
-/

namespace ImpSyntax

/-- What a token is, apart from its text and its place. -/
inductive Kind where
  | number
  | identifier
  | leftBrace
  | rightBrace
  | leftParen
  | rightParen
  | assign
  | equal
  | logicalNot
  | notEqual
  | less
  | lessEqual
  | greater
  | greaterEqual
  | logicalOr
  | logicalAnd
  | bitOr
  | bitXor
  | bitAnd
  | semicolon
  | comma
  | increment
  | decrement
  | addAssign
  | subAssign
  | divAssign
  | mulAssign
  | andAssign
  | xorAssign
  | orAssign
  | plus
  | minus
  | slash
  | star
  | printWord
  | ifWord
  | elseWord
  | whileWord
  | forWord
deriving DecidableEq, Repr

namespace Kind

/-! ## Spelling -/

/-- The one spelling of a kind.  Numbers and identifiers have none. -/
def lexeme? : Kind → Option String
  | number => none
  | identifier => none
  | leftBrace => some "\x7b"
  | rightBrace => some "\x7d"
  | leftParen => some "("
  | rightParen => some ")"
  | assign => some "="
  | equal => some "=="
  | logicalNot => some "!"
  | notEqual => some "!="
  | less => some "<"
  | lessEqual => some "<="
  | greater => some ">"
  | greaterEqual => some ">="
  | logicalOr => some "||"
  | logicalAnd => some "&&"
  | bitOr => some "|"
  | bitXor => some "^"
  | bitAnd => some "&"
  | semicolon => some ";"
  | comma => some ","
  | increment => some "++"
  | decrement => some "--"
  | addAssign => some "+="
  | subAssign => some "-="
  | divAssign => some "/="
  | mulAssign => some "*="
  | andAssign => some "&="
  | xorAssign => some "^="
  | orAssign => some "|="
  | plus => some "+"
  | minus => some "-"
  | slash => some "/"
  | star => some "*"
  | printWord => some "print"
  | ifWord => some "if"
  | elseWord => some "else"
  | whileWord => some "while"
  | forWord => some "for"

/-- Whether a text is the spelling of a kind. -/
def isSpelled (kind : Kind) (text : List Char) : Bool :=
  match kind.lexeme? with
  | some lexeme => lexeme.toList == text
  | none => false

/-- A kind as messages name it: its spelling between apostrophes, or a word for the kinds without
one. -/
def describe (kind : Kind) : String :=
  match kind.lexeme? with
  | some lexeme => "'" ++ lexeme ++ "'"
  | none => if kind = number then "number" else "identifier"

/-! ## Symbols and reserved words -/

/-- The kinds spelled without letters: operators and punctuation. -/
def symbols : List Kind :=
  [leftBrace, rightBrace, leftParen, rightParen, assign, equal, logicalNot, notEqual, less,
   lessEqual, greater, greaterEqual, logicalOr, logicalAnd, bitOr, bitXor, bitAnd, semicolon,
   comma, increment, decrement, addAssign, subAssign, divAssign, mulAssign, andAssign, xorAssign,
   orAssign, plus, minus, slash, star]

/-- The kinds of the reserved words. -/
def reservedWords : List Kind :=
  [printWord, ifWord, elseWord, whileWord, forWord]

/-- The symbol with the given spelling. -/
def ofSymbol? (text : List Char) : Option Kind :=
  symbols.find? (isSpelled · text)

/-- The reserved word with the given spelling. -/
def reserved? (text : List Char) : Option Kind :=
  reservedWords.find? (isSpelled · text)

/-- The kind of a word: reserved, or an identifier. -/
def ofWord (text : List Char) : Kind :=
  (reserved? text).getD identifier

/-! ## Operators -/

/-- The operators that assign to what stands on their left. -/
def assignments : List Kind :=
  [assign, addAssign, subAssign, divAssign, mulAssign, andAssign, xorAssign, orAssign]

/-- The operators that are written before their operand. -/
def signs : List Kind :=
  [logicalNot, minus]

/-- The operators that are written after their operand. -/
def steps : List Kind :=
  [increment, decrement]

/-- Whether an operator assigns to what stands on its left. -/
def isAssignment (kind : Kind) : Bool :=
  assignments.contains kind

/-- Whether an operator is written after its operand. -/
def isStep (kind : Kind) : Bool :=
  steps.contains kind

end Kind

end ImpSyntax
