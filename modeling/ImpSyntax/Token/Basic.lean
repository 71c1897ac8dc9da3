import ImpSyntax.Text.Lines
import ImpSyntax.Token.Kind

/-!
# Tokens

A token is a kind with the text it was read from and the line it stands on.  Nothing forces the text
to suit the kind: grammar rules look at the kind alone, and only the value of a number is taken from
its text.
-/

namespace ImpSyntax

/-- A lexeme of a source with its kind and its line. -/
structure Token where
  kind : Kind
  text : String
  line : LineNumber
deriving DecidableEq, Repr

namespace Token

/-- The token of a kind in the kind's own spelling, which is empty if it has none. -/
def ofKind (kind : Kind) (line : LineNumber) : Token :=
  ⟨kind, kind.lexeme?.getD "", line⟩

/-- Whether the kind of a token is one of the given kinds. -/
def isOneOf (token : Token) (kinds : List Kind) : Bool :=
  kinds.contains token.kind

end Token

end ImpSyntax
