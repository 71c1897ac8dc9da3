import ImpSyntax.Expr.Basic

/-!
# The text of an expression

Every operator is written with its operands inside parentheses of its own, so the text shows the
shape of the tree and needs no rules of precedence.  A binary operator has a space on each side, a
unary one touches its operand.
-/

namespace ImpSyntax

namespace Expr

/-- The canonical text of an expression. -/
def render : Expr → String
  | number _ token => token.text
  | var token => token.text
  | unary operator operand =>
    if operator.kind.isStep then
      "(" ++ operand.render ++ operator.text ++ ")"
    else
      "(" ++ operator.text ++ operand.render ++ ")"
  | binary operator left right =>
    "(" ++ left.render ++ " " ++ operator.text ++ " " ++ right.render ++ ")"

/-- The canonical text of a list of expressions. -/
def renderAll : List Expr → String
  | [] => ""
  | [e] => e.render
  | e :: rest => e.render ++ ", " ++ renderAll rest

end Expr

end ImpSyntax
