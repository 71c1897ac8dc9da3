import ImpSyntax.Failure
import ImpSyntax.Source.Division

/-!
# The tokens of a source

`tokenize` divides a source into its elements and keeps the lexemes as tokens.  It fails exactly
if the division gets stuck.  The failure names the opening of the comment that is never closed, or
the one character that starts no element, and the line of either.
-/

namespace ImpSyntax

/-- The part of a stuck text to blame: the opening of a comment, or a single character. -/
def offendingText (stuck : List Char) : List Char :=
  match stuck with
  | '/' :: '*' :: _ => ['/', '*']
  | _ => stuck.take 1

/-- The tokens of a source, or why it has none. -/
def tokenize (source : String) : Except Failure (List Token) :=
  let division := divide source.toList
  if division.stuck = [] then
    .ok (Piece.tokens 1 division.pieces)
  else
    .error ⟨.unrecognised (String.ofList (offendingText division.stuck)),
      some (Piece.lineAfter 1 division.pieces)⟩

end ImpSyntax
