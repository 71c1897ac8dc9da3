import ImpSyntax.Expr.Basic

/-!
# Statements

The statements of the language and its programs.  A conditional with an `else` is a constructor of
its own, so no statement has an optional part.

`Stmt.equal` compares statements node by node and their expressions with `Expr.equal`;
`Program.equal` does so for programs.
-/

namespace ImpSyntax

/-- A statement of the language. -/
inductive Stmt where
  /-- Print a variable. -/
  | print (target : Token)
  /-- A conditional without an alternative. -/
  | ifThen (condition : Expr) (body : Stmt)
  /-- A conditional with an alternative. -/
  | ifElse (condition : Expr) (body alternative : Stmt)
  /-- A loop with its condition. -/
  | whileLoop (condition : Expr) (body : Stmt)
  /-- A loop with a first statement, a condition, and expressions to evaluate after each round. -/
  | forLoop (first : Stmt) (condition : Expr) (step : List Expr) (body : Stmt)
  /-- Statements in braces. -/
  | block (body : List Stmt)
  /-- Expressions to evaluate in turn. -/
  | eval (expressions : List Expr)
  /-- The statement that does nothing. -/
  | empty
deriving Repr

/-- A program: statements in the order in which they run. -/
abbrev Program := List Stmt

namespace Stmt

mutual

/-- Whether two statements are the same tree with equal tokens and equal values. -/
def equal : Stmt → Stmt → Bool
  | print t, print u => t == u
  | ifThen c s, ifThen d t => c.equal d && s.equal t
  | ifElse c s a, ifElse d t b => c.equal d && s.equal t && a.equal b
  | whileLoop c s, whileLoop d t => c.equal d && s.equal t
  | forLoop i c e s, forLoop j d f t => i.equal j && c.equal d && Expr.equalAll e f && s.equal t
  | block b, block c => equalAll b c
  | eval e, eval f => Expr.equalAll e f
  | empty, empty => true
  | _, _ => false

/-- Whether two lists of statements are equal, member by member. -/
def equalAll : List Stmt → List Stmt → Bool
  | [], [] => true
  | s :: ss, t :: ts => s.equal t && equalAll ss ts
  | _, _ => false

end

end Stmt

/-- Whether two programs are equal, statement by statement. -/
def Program.equal (p q : Program) : Bool :=
  Stmt.equalAll p q

end ImpSyntax
