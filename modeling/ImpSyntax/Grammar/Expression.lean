import ImpSyntax.Expr.Basic
import ImpSyntax.Grammar.Level
import ImpSyntax.Grammar.Rule
import ImpSyntax.Number.Numeral

/-!
# The grammar of expressions

An expression is an assignment: operands joined by the operators of nine levels, and then possibly
an assignment operator with another assignment.  So assignments group to the right, while the
operators of a level group to the left.  An operand has any number of signs before it and at most
one step after it; the step is applied first and the signs from the inside out.  What is left are
numbers, variables and expressions in parentheses.

Rules that contain whole expressions take the rule for those as the argument `inner`, and
`expression` ties the knot.
-/

namespace ImpSyntax

namespace Grammar

open Rule

/-- A number or a variable. -/
def primary : Rule Expr := do
  match ← accept [.number] with
  | some token =>
    match numberValue? token.text with
    | some value => pure (.number value token)
    | none => fail ⟨.malformedNumber token.text, some token.line⟩
  | none =>
    match ← accept [.identifier] with
    | some token => pure (.var token)
    | none => failHere .expectedOperand

/-- An expression in parentheses, a number or a variable. -/
def grouping (inner : Rule Expr) : Rule Expr := do
  match ← accept [.leftParen] with
  | none => primary
  | some _ =>
    let e ← inner
    let _ ← require [.rightParen]
    return e

/-- The operand of a step, with the step applied to it if there is one. -/
def applyStep (operand : Expr) : Option Token → Expr
  | none => operand
  | some step => .unary step operand

/-- An operand with its signs and its step. -/
def unary (inner : Rule Expr) : Rule Expr := do
  let signs ← many (accept Kind.signs)
  let operand ← grouping inner
  let step ← accept Kind.steps
  return signs.foldr Expr.unary (applyStep operand step)

/-- An operator of the given kinds and its right operand, if there is such an operator. -/
def operation? (kinds : List Kind) (operand : Rule Expr) : Rule (Option (Token × Expr)) := do
  match ← accept kinds with
  | none => pure none
  | some operator => return some (operator, ← operand)

/-- An expression grown to the right by an operator and its right operand. -/
def extend (left : Expr) (operation : Token × Expr) : Expr :=
  .binary operation.1 left operation.2

/-- Operands joined by operators of the given kinds, which group to the left. -/
def leftRun (kinds : List Kind) (operand : Rule Expr) : Rule Expr := do
  let first ← operand
  let operations ← many (operation? kinds operand)
  return operations.foldl extend first

/-- Operands joined by operators of the given levels, listed from the loosest to the tightest. -/
def climb (levels : List Level) (inner : Rule Expr) : Rule Expr :=
  levels.foldr (fun level operand => leftRun level.operators operand) (unary inner)

/-- Operands joined by operators of all levels, and then possibly an assignment. -/
def assignment (inner : Rule Expr) : Rule Expr := do
  let left ← climb Level.loosestFirst inner
  match ← accept Kind.assignments with
  | none => pure left
  | some operator => return .binary operator left (← inner)

/-- An expression. -/
def expression : Rule Expr :=
  fix assignment

/-- A comma and an expression, if there is a comma. -/
def nextExpression? : Rule (Option Expr) := do
  match ← accept [.comma] with
  | none => pure none
  | some _ => return some (← expression)

/-- One or more expressions with commas between them. -/
def expressionList : Rule (List Expr) := do
  let first ← expression
  return first :: (← many nextExpression?)

end Grammar

end ImpSyntax
