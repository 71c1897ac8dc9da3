import ImpSyntax.Grammar.Statement
import ImpSyntax.Proofs.Rule.Outcome

/-!
# The faults that the grammar finds

A rule fails where a token of one kind is missing or where an operand is, and there are few kinds
that a rule insists on: `Fault.OfGrammar` lists the faults that can come of it.  A closing brace is
missed at the end only, because any other token in its place is read as the beginning of a
statement.

`FailsOnly P rule` says that whatever the rule is used on, it fails with faults of the class `P`
only.  Rules that are made of such rules are such rules (`FailsOnly.bind`, `FailsOnly.fix`), so that
one goes through the grammar from the primaries up to `failsOnly_program`.
-/

namespace ImpSyntax

/-- The kinds of token that are missed where another token is. -/
def Kind.required : List Kind :=
  [.identifier, .semicolon, .leftParen, .rightParen]

/-- The fault is one of those that the rules of the grammar find. -/
inductive Fault.OfGrammar : Fault → Prop where
  | unexpected {kind : Kind} (hkind : kind ∈ Kind.required) (found : String) :
      OfGrammar (.unexpected [kind] found)
  | unexpectedEnd {kind : Kind} (hkind : kind ∈ .rightBrace :: Kind.required) :
      OfGrammar (.unexpectedEnd [kind])
  | expectedOperand : OfGrammar .expectedOperand
  | malformedNumber (text : String) : OfGrammar (.malformedNumber text)

namespace Rule

variable {α β : Type} {P : Fault → Prop}

/-- Whenever the rule fails, its fault is of the class. -/
def FailsOnly (P : Fault → Prop) (rule : Rule α) : Prop :=
  ∀ ⦃tokens failure rest⦄, rule tokens = .failed failure rest → P failure.fault

lemma failsOnly_pure (a : α) : FailsOnly P (pure a : Rule α) := by
  intro tokens failure rest hrun
  exact absurd hrun (by simp)

lemma failsOnly_accept (kinds : List Kind) : FailsOnly P (accept kinds) := by
  intro tokens failure rest hrun
  exact absurd hrun accept_ne_failed

lemma failsOnly_fail {failure : Failure} (h : P failure.fault) :
    FailsOnly P (fail failure : Rule α) := by
  intro tokens other rest hrun
  injection hrun with hfailure
  rwa [← hfailure]

lemma failsOnly_failHere {fault : Fault} (h : P fault) : FailsOnly P (failHere fault : Rule α) := by
  intro tokens failure rest hrun
  injection hrun with hfailure
  rwa [← hfailure]

lemma FailsOnly.bind {rule : Rule α} {next : α → Rule β} (hrule : FailsOnly P rule)
    (hnext : ∀ a, FailsOnly P (next a)) : FailsOnly P (rule >>= next) := by
  intro tokens failure rest hrun
  rcases bind_eq_failed.1 hrun with hfirst | ⟨a, middle, -, hsecond⟩
  · exact hrule hfirst
  · exact hnext a hsecond

lemma FailsOnly.wrap {rule : Rule α} {f : α → β} (hrule : FailsOnly P rule) :
    FailsOnly P (rule >>= fun a => pure (f a)) :=
  .bind hrule fun _ => failsOnly_pure _

/-- Each unfolding of a recursive rule fails as its body does, or past its bound for want of an
operand. -/
lemma FailsOnly.fix {body : Rule α → Rule α} (hoperand : P .expectedOperand)
    (hbody : ∀ rule, FailsOnly P rule → FailsOnly P (body rule)) : FailsOnly P (fix body) := by
  have hunfold : ∀ bound, FailsOnly P (unfold body bound) := by
    intro bound
    induction bound with
    | nil => exact failsOnly_failHere hoperand
    | cons _ bound ih => exact hbody _ ih
  intro tokens failure rest hrun
  exact hbody _ (hunfold tokens) hrun

lemma FailsOnly.many {item? : Rule (Option α)} (hoperand : P .expectedOperand)
    (hitem : FailsOnly P item?) : FailsOnly P (many item?) :=
  .fix hoperand fun _ hagain => .bind hitem fun
    | none => failsOnly_pure []
    | some _ => .wrap hagain

lemma failsOnly_require {kind : Kind} (hkind : kind ∈ Kind.required) :
    FailsOnly Fault.OfGrammar (require [kind]) := by
  intro tokens failure rest hrun
  obtain ⟨-, rfl, -⟩ := require_eq_failed.1 hrun
  cases tokens with
  | nil => exact .unexpectedEnd (List.mem_cons_of_mem _ hkind)
  | cons token tokens => exact .unexpected hkind token.text

end Rule

namespace Grammar

open Rule

/-! ## Expressions -/

lemma failsOnly_primary : FailsOnly Fault.OfGrammar primary := by
  refine .bind (failsOnly_accept _) ?_
  rintro (_ | token)
  · refine .bind (failsOnly_accept _) ?_
    rintro (_ | token)
    · exact failsOnly_failHere .expectedOperand
    · exact failsOnly_pure _
  · dsimp only
    cases numberValue? token.text with
    | none => exact failsOnly_fail (.malformedNumber _)
    | some value => exact failsOnly_pure _

section Expressions

variable {inner : Rule Expr} (hinner : FailsOnly Fault.OfGrammar inner)
include hinner

lemma failsOnly_unary : FailsOnly Fault.OfGrammar (unary inner) := by
  have hgrouping : FailsOnly Fault.OfGrammar (grouping inner) := by
    refine .bind (failsOnly_accept _) ?_
    rintro (_ | _)
    · exact failsOnly_primary
    · exact .bind hinner fun _ => .wrap (failsOnly_require (by decide))
  exact .bind (.many .expectedOperand (failsOnly_accept _)) fun _ =>
    .bind hgrouping fun _ => .wrap (failsOnly_accept _)

lemma failsOnly_leftRun (kinds : List Kind) : FailsOnly Fault.OfGrammar (leftRun kinds inner) := by
  have hoperation : FailsOnly Fault.OfGrammar (operation? kinds inner) := by
    refine .bind (failsOnly_accept _) ?_
    rintro (_ | _)
    · exact failsOnly_pure _
    · exact .wrap hinner
  exact .bind hinner fun _ => .wrap (.many .expectedOperand hoperation)

lemma failsOnly_climb (levels : List Level) : FailsOnly Fault.OfGrammar (climb levels inner) := by
  induction levels with
  | nil => exact failsOnly_unary hinner
  | cons level levels ih => exact failsOnly_leftRun ih _

lemma failsOnly_assignment : FailsOnly Fault.OfGrammar (assignment inner) := by
  refine .bind (failsOnly_climb hinner _) fun left => .bind (failsOnly_accept _) ?_
  rintro (_ | _)
  · exact failsOnly_pure _
  · exact .wrap hinner

end Expressions

lemma failsOnly_expression : FailsOnly Fault.OfGrammar expression :=
  .fix .expectedOperand fun _ => failsOnly_assignment

lemma failsOnly_expressionList : FailsOnly Fault.OfGrammar expressionList := by
  have hnext : FailsOnly Fault.OfGrammar nextExpression? := by
    refine .bind (failsOnly_accept _) ?_
    rintro (_ | _)
    · exact failsOnly_pure _
    · exact .wrap failsOnly_expression
  exact .bind failsOnly_expression fun _ => .wrap (.many .expectedOperand hnext)

lemma failsOnly_condition : FailsOnly Fault.OfGrammar condition :=
  .bind (failsOnly_require (by decide)) fun _ => .bind failsOnly_expression fun _ =>
    .wrap (failsOnly_require (by decide))

/-! ## Statements -/

lemma failsOnly_printRest : FailsOnly Fault.OfGrammar printRest :=
  .bind (failsOnly_require (by decide)) fun _ => .wrap (failsOnly_require (by decide))

lemma failsOnly_simple : FailsOnly Fault.OfGrammar simple := by
  refine .bind (failsOnly_accept _) ?_
  rintro (_ | _)
  · exact .bind failsOnly_expressionList fun _ => .wrap (failsOnly_require (by decide))
  · exact failsOnly_pure _

section Statements

variable {inner : Rule Stmt} (hinner : FailsOnly Fault.OfGrammar inner)
include hinner

lemma failsOnly_ifRest : FailsOnly Fault.OfGrammar (ifRest inner) := by
  refine .bind failsOnly_condition fun _ => .bind hinner fun _ => .bind (failsOnly_accept _) ?_
  rintro (_ | _)
  · exact failsOnly_pure _
  · exact .wrap hinner

lemma failsOnly_whileRest : FailsOnly Fault.OfGrammar (whileRest inner) :=
  .bind failsOnly_condition fun _ => .wrap hinner

lemma failsOnly_forRest : FailsOnly Fault.OfGrammar (forRest inner) :=
  .bind (failsOnly_require (by decide)) fun _ => .bind hinner fun _ =>
    .bind failsOnly_expression fun _ => .bind (failsOnly_require (by decide)) fun _ =>
      .bind failsOnly_expressionList fun _ => .bind (failsOnly_require (by decide)) fun _ =>
        .wrap hinner

/-- The closing brace is asked for when no token is left. -/
lemma failsOnly_blockItem? : FailsOnly Fault.OfGrammar (blockItem? inner) := by
  refine .bind (failsOnly_accept _) ?_
  rintro (_ | _)
  · intro tokens failure rest hrun
    cases tokens with
    | nil =>
      injection hrun with hfailure
      rw [← hfailure]
      exact .unexpectedEnd List.mem_cons_self
    | cons token tokens => exact hinner (bind_pure_eq_failed.1 hrun)
  · exact failsOnly_pure _

lemma failsOnly_blockRest : FailsOnly Fault.OfGrammar (blockRest inner) :=
  .wrap (.many .expectedOperand (failsOnly_blockItem? hinner))

lemma failsOnly_statementWith : FailsOnly Fault.OfGrammar (statementWith inner) := by
  refine .bind (failsOnly_accept _) fun opener => ?_
  unfold statementRest
  split
  · exact failsOnly_printRest
  · exact failsOnly_ifRest hinner
  · exact failsOnly_whileRest hinner
  · exact failsOnly_forRest hinner
  · exact failsOnly_blockRest hinner
  · exact failsOnly_simple

end Statements

lemma failsOnly_statement : FailsOnly Fault.OfGrammar statement :=
  .fix .expectedOperand fun _ => failsOnly_statementWith

/-- Whatever the tokens are, reading a program fails with a fault of the grammar. -/
theorem failsOnly_program : FailsOnly Fault.OfGrammar program := by
  have hitem : FailsOnly Fault.OfGrammar programItem? := by
    intro tokens failure rest hrun
    cases tokens with
    | nil => exact absurd hrun (by simp [programItem?, bind_apply, atEnd])
    | cons token tokens => exact failsOnly_statement (bind_pure_eq_failed.1 hrun)
  exact .many .expectedOperand hitem

end Grammar

end ImpSyntax
