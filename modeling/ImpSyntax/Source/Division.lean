import ImpSyntax.Source.Element
import ImpSyntax.Token.Basic

/-!
# The division of a source into elements

`divide` cuts a source into the elements it consists of, from the left, each one as long as it can
be.  Where no element can be found the cut stops; what is left from there on is the `stuck` part of
the `Division`, which is empty if and only if the whole source could be divided.
-/

namespace ImpSyntax

/-- A lexical element with its text. -/
structure Piece where
  role : Role
  text : List Char
deriving DecidableEq, Repr

/-- A source cut into elements, up to the place where it starts none. -/
structure Division where
  pieces : List Piece
  stuck : List Char
deriving DecidableEq, Repr

namespace Division

/-- The division of a text that starts with the given element. -/
def cons (piece : Piece) (rest : Division) : Division :=
  ⟨piece :: rest.pieces, rest.stuck⟩

end Division

/-- Cut a source into its elements. -/
def divide (source : List Char) : Division :=
  match source with
  | [] => ⟨[], []⟩
  | c :: s =>
    match Element.front? c s with
    | none => ⟨[], c :: s⟩
    | some (role, more) => .cons ⟨role, c :: s.take more⟩ (divide (s.drop more))
termination_by source.length
decreasing_by simp only [List.length_drop, List.length_cons]; omega

namespace Piece

/-- The tokens of the lexemes among some pieces, of which the first starts on the given line. -/
def tokens (line : LineNumber) : List Piece → List Token
  | [] => []
  | piece :: rest =>
    let after := tokens (line + Text.lineBreaks piece.text) rest
    match piece.role with
    | .gap => after
    | .lexeme kind => ⟨kind, String.ofList piece.text, line⟩ :: after

/-- The line that follows some pieces, of which the first starts on the given line. -/
def lineAfter (line : LineNumber) (pieces : List Piece) : LineNumber :=
  pieces.foldl (fun line piece => line + Text.lineBreaks piece.text) line

end Piece

end ImpSyntax
