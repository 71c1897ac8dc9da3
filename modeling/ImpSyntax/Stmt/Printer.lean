import ImpSyntax.Expr.Printer
import ImpSyntax.Stmt.Basic

/-!
# The text of a statement

The canonical text of a statement is one line, whatever lines its tokens came from.  Parts are
separated by single spaces, and expressions keep their own parentheses inside those of a header.
-/

namespace ImpSyntax

namespace Stmt

mutual

/-- The canonical text of a statement. -/
def render : Stmt → String
  | print target => "print " ++ target.text ++ ";"
  | ifThen condition body => "if (" ++ condition.render ++ ") " ++ body.render
  | ifElse condition body alternative =>
    "if (" ++ condition.render ++ ") " ++ body.render ++ " else " ++ alternative.render
  | whileLoop condition body => "while (" ++ condition.render ++ ") " ++ body.render
  | forLoop first condition step body =>
    "for (" ++ first.render ++ " " ++ condition.render ++ "; " ++ Expr.renderAll step ++ ") " ++
      body.render
  | block body => "\x7b" ++ renderBody body ++ " \x7d"
  | eval expressions => Expr.renderAll expressions ++ ";"
  | empty => ";"

/-- The statements of a block, each after a space. -/
def renderBody : List Stmt → String
  | [] => ""
  | s :: rest => " " ++ s.render ++ renderBody rest

end

end Stmt

/-- The canonical text of a program: one line for each statement. -/
def Program.render (program : Program) : String :=
  "\n".intercalate (program.map Stmt.render)

end ImpSyntax
