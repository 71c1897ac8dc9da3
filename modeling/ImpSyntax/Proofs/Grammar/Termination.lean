import ImpSyntax.Program
import ImpSyntax.Proofs.Cursor.Place
import ImpSyntax.Proofs.Grammar.Routine

/-!
# Reading comes to an end

Many routines use others before they have taken a token: every level of precedence the next tighter
one, down to primary expressions, and every statement, if it has no opening token, an expression.
`Routine.height` orders them so that this always leads downwards.  All other uses come after a
token.  So the number of tokens left and then the height decrease from use to use, and nothing needs
to be known of how deep the uses are nested.

The repetitions are a reason of their own.  A block or a program would go round for ever if a
statement could be read from no token, and so would a list of operations or expressions without its
operators or commas.  `Routine.advances` says that whatever is read has taken a token.

The main result is `parsing_terminates`.
-/

namespace ImpSyntax

open Rule Script

namespace Routine

variable {α : Type}

/-! ## Descent -/

/-- How high a routine stands.  Before it has taken a token it uses lower ones only. -/
def height ⦃α : Type⦄ : Routine α → ℕ
  | primary => 0
  | grouping => 1
  | unary => 2
  | level l => 2 + l.andTighter.length
  | assignment => 12
  | expression => 13
  | expressionList => 14
  | condition => 14
  | simple => 15
  | statement => 16
  | printRest => 17
  | ifRest => 17
  | whileRest => 17
  | forRest => 17
  | blockRest => 17

lemma height_operand_lt (l : Level) : (operand l).height < (level l).height := by
  cases l <;> decide

lemma composed_rule_operand (l : Level) : Composed (operand l).rule := by
  rw [rule_operand]
  exact Grammar.composed_ruleWith Grammar.composed_expression _

lemma itemAdvances_operation? (l : Level) :
    ItemAdvances (Grammar.operation? l.operators (operand l).rule) :=
  Grammar.itemAdvances_operation? (composed_rule_operand l)

lemma itemAdvances_blockItem? : ItemAdvances (Grammar.blockItem? Grammar.statement) :=
  Grammar.itemAdvances_blockItem? Grammar.advances_statement

/-! ### Repetitions -/

section

variable {bound : WithTop ℕ}

lemma descends_signs : Descends height rule (many (Script.accept Kind.signs)) bound :=
  ⟨.basic, .accept _, itemAdvances_accept _⟩

lemma descends_operations (l : Level) :
    Descends height rule (many (operation? l)) bound := by
  refine ⟨.accept (fun _ => .bind .use_top fun _ => .basic) .basic, ?_⟩
  rw [rule_operation?]
  exact ⟨Grammar.composed_operation? (composed_rule_operand l), itemAdvances_operation? l⟩

lemma descends_nextExpressions : Descends height rule (many nextExpression?) bound := by
  refine ⟨.accept (fun _ => .bind .use_top fun _ => .basic) .basic, ?_⟩
  rw [rule_nextExpression?]
  exact ⟨Grammar.composed_nextExpression?, Grammar.itemAdvances_nextExpression?⟩

lemma descends_blockItems : Descends height rule (many blockItem?) (.some (height blockRest)) := by
  have hstatement : statement.height < blockRest.height := by decide
  refine ⟨.accept (fun _ => .basic) (.bind .basic fun ended => ?_), ?_⟩
  · cases ended with
    | true => exact .basic
    | false => exact .bind (.use hstatement) fun _ => .basic
  · rw [rule_blockItem?]
    exact ⟨Grammar.composed_blockItem? Grammar.composed_statement, itemAdvances_blockItem?⟩

lemma descends_program : Descends height rule program ⊤ := by
  refine ⟨.bind .basic fun ended => ?_, ?_⟩
  · cases ended with
    | true => exact .basic
    | false => exact .bind .use_top fun _ => .basic
  · rw [rule_programItem?]
    exact ⟨Grammar.composed_programItem?, Grammar.itemAdvances_programItem?⟩

end

/-- No routine uses one that is as high before it has taken a token. -/
lemma descends_script (routine : Routine α) :
    Descends height rule routine.script (.some (height routine)) := by
  cases routine with
  | expression => exact .use (by decide)
  | assignment =>
    exact .bind (.use (by decide)) fun _ => .accept (fun _ => .bind .use_top fun _ => .basic) .basic
  | level l =>
    exact .bind (.use (height_operand_lt l)) fun _ => .bind (descends_operations l) fun _ => .basic
  | unary =>
    refine .bind descends_signs fun _ => .bind (.use (by decide)) fun _ => ?_
    exact .bind .basic fun _ => .basic
  | grouping =>
    refine .accept (fun _ => ?_) (.use (by decide))
    exact .bind .use_top fun _ => .require fun _ => .basic
  | primary =>
    refine .accept (fun token => ?_) (.accept (fun _ => .basic) .basic)
    dsimp only
    cases numberValue? token.text <;> exact .basic
  | expressionList =>
    exact .bind (.use (by decide)) fun _ => .bind descends_nextExpressions fun _ => .basic
  | condition => exact .require fun _ => .bind .use_top fun _ => .require fun _ => .basic
  | statement => exact .accept (fun _ => .use_top) (.use (by decide))
  | printRest => exact .require fun _ => .require fun _ => .basic
  | ifRest =>
    refine .bind (.use (by decide)) fun _ => .bind (.use (by decide)) fun _ => ?_
    exact .accept (fun _ => .bind .use_top fun _ => .basic) .basic
  | whileRest => exact .bind (.use (by decide)) fun _ => .bind (.use (by decide)) fun _ => .basic
  | forRest =>
    refine .require fun _ => .bind .use_top fun _ => .bind .use_top fun _ => .require fun _ => ?_
    exact .bind .use_top fun _ => .require fun _ => .bind .use_top fun _ => .basic
  | blockRest => exact .bind descends_blockItems fun _ => .basic
  | simple =>
    exact .accept (fun _ => .basic) (.bind (.use (by decide)) fun _ => .require fun _ => .basic)

/-- The scripts of the grammar are justified by the tokens left and the heights. -/
theorem justified : Justified height rule script where
  rule_eq := rule_script
  descends := descends_script

/-! ## Progress -/

/-- What a routine reads, it has read from at least one token. -/
theorem advances (routine : Routine α) : Advances routine.rule := by
  have hcondition : Advances Grammar.condition :=
    .bind_left (advances_require _) fun _ => .bind Grammar.composed_expression fun _ =>
      .bind (.require _) fun _ => .pure _
  have hstatement : Composed Grammar.statement := Grammar.composed_statement
  cases routine with
  | expression => exact Grammar.advances_expression
  | assignment =>
    have hassignment : assignment.rule = expression.rule := Grammar.expression_eq.symm
    rw [hassignment]
    exact Grammar.advances_expression
  | level l => exact Grammar.advances_climb_andTighter Grammar.composed_expression l
  | unary => exact Grammar.advances_unary Grammar.composed_expression
  | grouping => exact Grammar.advances_grouping Grammar.composed_expression
  | primary => exact Grammar.advances_primary
  | expressionList => exact Grammar.advances_expressionList
  | condition => exact hcondition
  | statement => exact Grammar.advances_statement
  | printRest =>
    exact .bind_left (advances_require _) fun _ => .bind (.require _) fun _ => .pure _
  | ifRest =>
    rw [rule, Grammar.ifRest_eq]
    refine .bind_left hcondition fun _ => .bind hstatement fun _ => ?_
    exact .choose (fun _ => .bind hstatement fun _ => .pure _) (.pure _)
  | whileRest => exact .bind_left hcondition fun _ => .bind hstatement fun _ => .pure _
  | forRest =>
    exact .bind_left (advances_require _) fun _ => .bind hstatement fun _ =>
      .bind Grammar.composed_expression fun _ => .bind (.require _) fun _ =>
        .bind Grammar.composed_expressionList fun _ => .bind (.require _) fun _ =>
          .bind hstatement fun _ => .pure _
  | blockRest =>
    exact .bind_left (.many (Grammar.composed_blockItem? hstatement)
      (Grammar.advances_blockItem? Grammar.advances_statement)) fun _ => .pure _
  | simple => exact Grammar.advances_simple

end Routine

namespace Cursor

variable {α : Type}

/-- A rule that takes a token whenever it succeeds moves the cursor on, but not past the end. -/
lemma position_lt_of_apply {cursor next : Cursor} {rule : Rule α} {a : α} (hrule : Advances rule)
    (h : cursor.apply rule = (.ok a, next)) :
    cursor.position < next.position ∧ next.position ≤ cursor.tokens.length := by
  obtain ⟨rest, hrun, rfl⟩ := apply_eq_ok.1 h
  have hlt : rest.length < cursor.tokens.length - cursor.position := by
    rw [← length_ahead]
    exact hrule hrun
  have hposition : (cursor.moveTo rest).position = cursor.tokens.length - rest.length := rfl
  omega

end Cursor

/-- On all tokens, well formed or not, reading comes to an end, and whatever is read has taken a
token.

Following the script of a routine ends in exactly one way, with the outcome of its rule, and
following the script for programs ends with the result of `parse`.  Wherever a routine uses another
one, fewer tokens are left, or equally many and the other one stands lower.  A routine that succeeds
moves the cursor on, and every item of a program, of a block, of a list of expressions and of the
operations of a level takes a token. -/
theorem parsing_terminates :
    (∀ {α : Type} (routine : Routine α) (tokens : List Token) (outcome : Outcome α),
      Ends Routine.script (.use routine) tokens outcome ↔ outcome = routine.rule tokens) ∧
    (∀ tokens : List Token, ∃ outcome, Ends Routine.script Routine.program tokens outcome ∧
      parse tokens = outcome.result) ∧
    (∀ {α β : Type} (routine : Routine α) (other : Routine β) (tokens ahead : List Token),
      Uses Routine.script routine.script tokens other ahead →
        toLex (ahead.length, other.height) < toLex (tokens.length, routine.height)) ∧
    (∀ {α : Type} (routine : Routine α) (cursor next : Cursor) (a : α),
      cursor.apply routine.rule = (.ok a, next) →
        cursor.position < next.position ∧ next.position ≤ cursor.tokens.length) ∧
    ItemAdvances Grammar.programItem? ∧ ItemAdvances (Grammar.blockItem? Grammar.statement) ∧
      ItemAdvances Grammar.nextExpression? ∧
        ∀ level : Level, ItemAdvances
          (Grammar.operation? level.operators (Routine.operand level).rule) := by
  refine ⟨?_, ?_, ?_, ?_, Grammar.itemAdvances_programItem?, Routine.itemAdvances_blockItem?,
    Grammar.itemAdvances_nextExpression?, Routine.itemAdvances_operation?⟩
  · intro α routine tokens outcome
    have hends : Obeys Routine.script Routine.rule (.use routine) tokens :=
      Routine.justified.ends routine tokens
    constructor
    · exact fun h => h.unique hends
    · rintro rfl
      exact hends
  · intro tokens
    have hends : Obeys Routine.script Routine.rule Routine.program tokens :=
      Routine.descends_program.obeys fun routine ahead _ => Routine.justified.ends routine ahead
    rw [Obeys, Routine.rule_program] at hends
    exact ⟨_, hends, rfl⟩
  · intro α β routine other tokens ahead huses
    exact (Routine.justified.below (Routine.descends_script routine) huses).lex
  · intro α routine cursor next a happly
    exact Cursor.position_lt_of_apply routine.advances happly

/-- A statement without an opening token uses a lower routine with the same tokens ahead, while an
expression in parentheses uses a higher one after a token.  A loop that is read from its parenthesis
on. -/
theorem parsing_terminates_loop :
    let x : Token := ⟨.identifier, "x", 1⟩
    let left : Token := .ofKind .leftParen 1
    let right : Token := .ofKind .rightParen 1
    let semicolon : Token := .ofKind .semicolon 1
    let cursor : Cursor := ⟨[.ofKind .whileWord 1, left, x, right, .ofKind .leftBrace 1,
      .ofKind .rightBrace 2], 1⟩
    let next : Cursor := ⟨cursor.tokens, 6⟩
    Uses Routine.script Routine.statement.script [x, semicolon] Routine.simple [x, semicolon] ∧
      toLex ([x, semicolon].length, Routine.simple.height) <
        toLex ([x, semicolon].length, Routine.statement.height) ∧
      Uses Routine.script Routine.grouping.script [left, x, right] Routine.expression [x, right] ∧
      toLex ([x, right].length, Routine.expression.height) <
        toLex ([left, x, right].length, Routine.grouping.height) ∧
      cursor.apply Routine.whileRest.rule = (.ok (.whileLoop (.var x) (.block [])), next) ∧
      cursor.position < next.position ∧ next.position ≤ cursor.tokens.length := by
  intro x left right semicolon cursor next
  have hopener : Ends Routine.script (Script.accept Grammar.openers) [x, semicolon]
      (.done none [x, semicolon]) := .basic
  have hsimple : Uses Routine.script Routine.statement.script [x, semicolon] Routine.simple
      [x, semicolon] := .next hopener .use
  have hleft : Ends Routine.script (Script.accept [.leftParen]) [left, x, right]
      (.done (some left) [x, right]) := .basic
  have hexpression : Uses Routine.script Routine.grouping.script [left, x, right]
      Routine.expression [x, right] := .next hleft (.first .use)
  have happly : cursor.apply Routine.whileRest.rule =
      (.ok (.whileLoop (.var x) (.block [])), next) := rfl
  exact ⟨hsimple, parsing_terminates.2.2.1 _ _ _ _ hsimple, hexpression,
    parsing_terminates.2.2.1 _ _ _ _ hexpression, happly,
    parsing_terminates.2.2.2.1 _ cursor next _ happly⟩

end ImpSyntax
