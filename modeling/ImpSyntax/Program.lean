import ImpSyntax.Grammar.Statement
import ImpSyntax.Source.Tokenize

/-!
# Reading programs

`parse` reads the tokens of a whole program and `parseSource` its source.  `agree` compares two such
attempts: two programs by `Program.equal`, two failures by their faults and their lines.
-/

namespace ImpSyntax

/-- Read a list of tokens as a program. -/
def parse (tokens : List Token) : Except Failure Program :=
  (Grammar.program tokens).result

/-- Read a source as a program. -/
def parseSource (source : String) : Except Failure Program :=
  tokenize source >>= parse

/-- Whether two attempts to read a program have equal results. -/
def agree : Except Failure Program → Except Failure Program → Bool
  | .ok p, .ok q => p.equal q
  | .error e, .error f => e == f
  | _, _ => false

end ImpSyntax
