import ImpSyntax.Grammar.Expression
import ImpSyntax.Stmt.Basic

/-!
# The grammar of statements

A statement is known by its first token.  After `print`, `if`, `while`, `for` and an opening brace
the rest of that statement follows; every other statement is a lone semicolon, or a list of
expressions with a semicolon.  An `else` is looked for as soon as the statement before it is
complete, so it belongs to the nearest `if` that has none yet.

Rules that contain whole statements take the rule for those as the argument `inner`, and `statement`
ties the knot.
-/

namespace ImpSyntax

namespace Grammar

open Rule

/-- A condition in parentheses. -/
def condition : Rule Expr := do
  let _ ← require [.leftParen]
  let e ← expression
  let _ ← require [.rightParen]
  return e

/-- What follows `print`. -/
def printRest : Rule Stmt := do
  let target ← require [.identifier]
  let _ ← require [.semicolon]
  return .print target

/-- What follows `if`. -/
def ifRest (inner : Rule Stmt) : Rule Stmt := do
  let c ← condition
  let body ← inner
  match ← accept [.elseWord] with
  | none => pure (.ifThen c body)
  | some _ => return .ifElse c body (← inner)

/-- What follows `while`. -/
def whileRest (inner : Rule Stmt) : Rule Stmt := do
  let c ← condition
  return .whileLoop c (← inner)

/-- What follows `for`.  The first statement of the header brings its own semicolon. -/
def forRest (inner : Rule Stmt) : Rule Stmt := do
  let _ ← require [.leftParen]
  let first ← inner
  let c ← expression
  let _ ← require [.semicolon]
  let step ← expressionList
  let _ ← require [.rightParen]
  return .forLoop first c step (← inner)

/-- A statement of a block, or none where the closing brace is. -/
def blockItem? (inner : Rule Stmt) : Rule (Option Stmt) := do
  match ← accept [.rightBrace] with
  | some _ => pure none
  | none =>
    if ← atEnd then unexpected [.rightBrace] else return some (← inner)

/-- What follows an opening brace. -/
def blockRest (inner : Rule Stmt) : Rule Stmt := do
  return .block (← many (blockItem? inner))

/-- A lone semicolon, or expressions with a semicolon. -/
def simple : Rule Stmt := do
  match ← accept [.semicolon] with
  | some _ => pure .empty
  | none =>
    let expressions ← expressionList
    let _ ← require [.semicolon]
    return .eval expressions

/-- The kinds of token that tell what statement follows. -/
def openers : List Kind :=
  [.printWord, .ifWord, .whileWord, .forWord, .leftBrace]

/-- What follows the opening token of a statement.  A statement without one is simple. -/
def statementRest (inner : Rule Stmt) : Option Kind → Rule Stmt
  | some .printWord => printRest
  | some .ifWord => ifRest inner
  | some .whileWord => whileRest inner
  | some .forWord => forRest inner
  | some .leftBrace => blockRest inner
  | _ => simple

/-- A statement whose parts that are statements follow the rule `inner`. -/
def statementWith (inner : Rule Stmt) : Rule Stmt := do
  let opener ← accept openers
  statementRest inner (opener.map Token.kind)

/-- A statement. -/
def statement : Rule Stmt :=
  fix statementWith

/-- A statement, or none at the end. -/
def programItem? : Rule (Option Stmt) := do
  if ← atEnd then pure none else return some (← statement)

/-- Statements up to the end. -/
def program : Rule Program :=
  many programItem?

end Grammar

end ImpSyntax
