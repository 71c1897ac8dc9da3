import ImpSyntax.Grammar.Statement

/-!
# The productions of the grammar

Every rule of the grammar can be used on its own, from any token on.  A `Production` names one of
them, and `Production.rule` is the rule itself; since some read expressions and others statements,
what is read is a `Phrase`.
-/

namespace ImpSyntax

/-- A construct that a production reads. -/
inductive Phrase where
  | expression (e : Expr)
  | expressionList (es : List Expr)
  | statement (s : Stmt)
deriving Repr

/-- A rule of the grammar.  Those named after a reserved word or a block read what follows the
opening token of such a statement. -/
inductive Production where
  | expression
  | assignment
  | level (level : Level)
  | unary
  | grouping
  | primary
  | expressionList
  | statement
  | printRest
  | ifRest
  | whileRest
  | forRest
  | blockRest
deriving DecidableEq, Repr

namespace Production

open Grammar

/-- Read an expression as a phrase. -/
def ofExpression (rule : Rule Expr) : Rule Phrase := do
  return .expression (← rule)

/-- Read a statement as a phrase. -/
def ofStatement (rule : Rule Stmt) : Rule Phrase := do
  return .statement (← rule)

/-- The rule that a production names. -/
def rule : Production → Rule Phrase
  | expression => ofExpression Grammar.expression
  | assignment => ofExpression (Grammar.assignment Grammar.expression)
  | level l => ofExpression (climb l.andTighter Grammar.expression)
  | unary => ofExpression (Grammar.unary Grammar.expression)
  | grouping => ofExpression (Grammar.grouping Grammar.expression)
  | primary => ofExpression Grammar.primary
  | expressionList => do return .expressionList (← Grammar.expressionList)
  | statement => ofStatement Grammar.statement
  | printRest => ofStatement Grammar.printRest
  | ifRest => ofStatement (Grammar.ifRest Grammar.statement)
  | whileRest => ofStatement (Grammar.whileRest Grammar.statement)
  | forRest => ofStatement (Grammar.forRest Grammar.statement)
  | blockRest => ofStatement (Grammar.blockRest Grammar.statement)

end Production

end ImpSyntax
