import ImpSyntax.Proofs.Grammar.Unfolding
import ImpSyntax.Proofs.Rule.Script

/-!
# The routines of the grammar

The rules of the grammar use one another in many ways: whole expressions inside parentheses, each
level of precedence at the beginning of the next looser one, statements inside statements.  In
`Grammar` these ways are partly arguments of rules, partly lists of levels and partly `Rule.fix`.
Here every rule is a `Routine` and `Routine.script` says what it does, with each use of another
routine on the page.  No routine has a bound on how deep the uses may be nested.

`Routine.rule_script` says that the scripts stand for the rules of the grammar, and so does
`Routine.rule_program` for the script that reads whole programs.
-/

namespace ImpSyntax

/-- A rule of the grammar, by what it reads. -/
inductive Routine : Type → Type where
  | expression : Routine Expr
  | assignment : Routine Expr
  | level (level : Level) : Routine Expr
  | unary : Routine Expr
  | grouping : Routine Expr
  | primary : Routine Expr
  | expressionList : Routine (List Expr)
  | condition : Routine Expr
  | statement : Routine Stmt
  | printRest : Routine Stmt
  | ifRest : Routine Stmt
  | whileRest : Routine Stmt
  | forRest : Routine Stmt
  | blockRest : Routine Stmt
  | simple : Routine Stmt

namespace Routine

/-- The rule itself. -/
def rule ⦃α : Type⦄ : Routine α → Rule α
  | expression => Grammar.expression
  | assignment => Grammar.assignment Grammar.expression
  | level l => Grammar.climb l.andTighter Grammar.expression
  | unary => Grammar.unary Grammar.expression
  | grouping => Grammar.grouping Grammar.expression
  | primary => Grammar.primary
  | expressionList => Grammar.expressionList
  | condition => Grammar.condition
  | statement => Grammar.statement
  | printRest => Grammar.printRest
  | ifRest => Grammar.ifRest Grammar.statement
  | whileRest => Grammar.whileRest Grammar.statement
  | forRest => Grammar.forRest Grammar.statement
  | blockRest => Grammar.blockRest Grammar.statement
  | simple => Grammar.simple

/-- The routine for the operands of a level. -/
def operand (level : Level) : Routine Expr :=
  match level.operand with
  | .level tighter => .level tighter
  | _ => .unary

/-- The routine for what follows the opening token of a statement. -/
def rest : Option Kind → Routine Stmt
  | some .printWord => printRest
  | some .ifWord => ifRest
  | some .whileWord => whileRest
  | some .forWord => forRest
  | some .leftBrace => blockRest
  | _ => simple

/-! ## Scripts -/

section

open Script

def operation? (level : Level) : Script Routine (Option (Token × Expr)) := do
  match ← accept level.operators with
  | none => pure none
  | some operator => return some (operator, ← use (operand level))

def nextExpression? : Script Routine (Option Expr) := do
  match ← accept [.comma] with
  | none => pure none
  | some _ => return some (← use expression)

def blockItem? : Script Routine (Option Stmt) := do
  match ← accept [.rightBrace] with
  | some _ => pure none
  | none =>
    if ← atEnd then unexpected [.rightBrace] else return some (← use statement)

def programItem? : Script Routine (Option Stmt) := do
  if ← atEnd then pure none else return some (← use statement)

/-- The script that reads statements up to the end. -/
def program : Script Routine Program :=
  many programItem?

/-- What a routine does. -/
def script ⦃α : Type⦄ : Routine α → Script Routine α
  | expression => use assignment
  | assignment => do
    let left ← use (level .logicalOr)
    match ← accept Kind.assignments with
    | none => pure left
    | some operator => return .binary operator left (← use assignment)
  | level l => do
    let first ← use (operand l)
    let operations ← many (operation? l)
    return operations.foldl Grammar.extend first
  | unary => do
    let signs ← many (accept Kind.signs)
    let operand ← use grouping
    let step ← accept Kind.steps
    return signs.foldr Expr.unary (Grammar.applyStep operand step)
  | grouping => do
    match ← accept [.leftParen] with
    | none => use primary
    | some _ =>
      let e ← use expression
      let _ ← require [.rightParen]
      return e
  | primary => do
    match ← accept [.number] with
    | some token =>
      match numberValue? token.text with
      | some value => pure (.number value token)
      | none => fail ⟨.malformedNumber token.text, some token.line⟩
    | none =>
      match ← accept [.identifier] with
      | some token => pure (.var token)
      | none => failHere .expectedOperand
  | expressionList => do
    let first ← use expression
    return first :: (← many nextExpression?)
  | condition => do
    let _ ← require [.leftParen]
    let e ← use expression
    let _ ← require [.rightParen]
    return e
  | statement => do
    let opener ← accept Grammar.openers
    use (rest (opener.map Token.kind))
  | printRest => do
    let target ← require [.identifier]
    let _ ← require [.semicolon]
    return .print target
  | ifRest => do
    let c ← use condition
    let body ← use statement
    match ← accept [.elseWord] with
    | none => pure (.ifThen c body)
    | some _ => return .ifElse c body (← use statement)
  | whileRest => do
    let c ← use condition
    return .whileLoop c (← use statement)
  | forRest => do
    let _ ← require [.leftParen]
    let first ← use statement
    let c ← use expression
    let _ ← require [.semicolon]
    let step ← use expressionList
    let _ ← require [.rightParen]
    return .forLoop first c step (← use statement)
  | blockRest => return .block (← many blockItem?)
  | simple => do
    match ← accept [.semicolon] with
    | some _ => pure .empty
    | none =>
      let expressions ← use expressionList
      let _ ← require [.semicolon]
      return .eval expressions

end

/-! ## The scripts stand for the rules -/

open Rule Script

lemma rule_operand (l : Level) :
    (operand l).rule = Grammar.ruleWith Grammar.expression l.operand := by
  cases l <;> rfl

lemma rule_rest (opener : Option Kind) :
    (rest opener).rule = Grammar.statementRest Grammar.statement opener := by
  rcases opener with _ | kind
  · rfl
  · cases kind <;> rfl

lemma rule_operation? (l : Level) :
    (operation? l).rule rule = Grammar.operation? l.operators (operand l).rule := by
  rw [Grammar.operation?_eq]
  exact rule_accept_bind _ _ _

lemma rule_nextExpression? : nextExpression?.rule rule = Grammar.nextExpression? := by
  rw [Grammar.nextExpression?_eq]
  exact rule_accept_bind _ _ _

lemma rule_blockItem? : blockItem?.rule rule = Grammar.blockItem? Grammar.statement := by
  rw [Grammar.blockItem?_eq]
  refine (rule_accept_bind _ _ _).trans ?_
  congr 1
  refine rule_bind_congr fun ended => ?_
  cases ended <;> rfl

lemma rule_programItem? : programItem?.rule rule = Grammar.programItem? := by
  refine rule_bind_congr fun ended => ?_
  cases ended <;> rfl

/-- The script for programs stands for the rule that reads them. -/
theorem rule_program : program.rule rule = Grammar.program := by
  rw [Grammar.program, ← rule_programItem?]
  rfl

lemma rule_primary : primary.script.rule rule = Grammar.primary := by
  refine rule_bind_congr fun found => ?_
  cases found with
  | none =>
    refine rule_bind_congr fun found => ?_
    cases found <;> rfl
  | some token =>
    dsimp only
    cases numberValue? token.text <;> rfl

/-- The right operand of an assignment is an assignment, which is an expression. -/
lemma rule_assignment :
    assignment.script.rule rule = Grammar.assignment Grammar.expression := by
  have hassignment : assignment.rule = Grammar.expression := Grammar.expression_eq.symm
  rw [Grammar.assignment_eq]
  refine rule_bind_congr fun left => (rule_accept_bind _ _ _).trans ?_
  conv_rhs => rw [← hassignment]
  rfl

lemma rule_ifRest : ifRest.script.rule rule = Grammar.ifRest Grammar.statement := by
  rw [Grammar.ifRest_eq]
  exact rule_bind_congr fun c => rule_bind_congr fun body => rule_accept_bind _ _ _

/-- The script of every routine stands for its rule. -/
theorem rule_script {α : Type} (routine : Routine α) :
    routine.script.rule rule = routine.rule := by
  cases routine with
  | expression => exact Grammar.expression_eq.symm
  | assignment => exact rule_assignment
  | level l =>
    rw [rule, Grammar.climb_andTighter, ← rule_operand, Grammar.leftRun, ← rule_operation?]
    rfl
  | unary => rfl
  | grouping => exact (rule_accept_bind _ _ _).trans (Grammar.grouping_eq _).symm
  | primary => exact rule_primary
  | expressionList =>
    rw [rule, Grammar.expressionList, ← rule_nextExpression?]
    rfl
  | condition => rfl
  | statement =>
    rw [rule, Grammar.statement_eq]
    exact rule_bind_congr fun opener => rule_rest _
  | printRest => rfl
  | ifRest => exact rule_ifRest
  | whileRest => rfl
  | forRest => rfl
  | blockRest =>
    rw [rule, Grammar.blockRest, ← rule_blockItem?]
    rfl
  | simple => exact (rule_accept_bind _ _ _).trans Grammar.simple_eq.symm

end Routine

end ImpSyntax
