import ImpSyntax.Grammar.Production
import ImpSyntax.Proofs.Grammar.Completion
import ImpSyntax.Proofs.Tree.Skeleton

/-!
# What all productions have in common

A production can be used on its own, from any token on.  What is known of the rules that read
expressions, statements and what follows the opening token of a statement is gathered here into one
statement about every production each:

* `Production.composed`: it is a composed rule;
* `Production.reads`: what it reads has the tokens that were consumed, apart from punctuation and
  reserved words;
* `Production.explains`: how it fails.

Most productions are members of two families, the categories of expressions and the rests of
statements, so there are five cases to consider (`Production.rule_cases`).
-/

namespace ImpSyntax

open Grammar Rule

/-- The tokens in a phrase, in the order in which they were written. -/
def Phrase.tokens : Phrase → List Token
  | expression e => e.tokens
  | expressionList es => es.flatMap Expr.tokens
  | statement s => s.tokens

namespace Grammar

/-! ## Categories of expressions and rests of statements -/

lemma reads_rule (category : Category) : Reads (rule category) (Derives category) := by
  cases category with
  | expression => exact reads_assignment composed_expression reads_expression
  | level level => exact reads_climb_andTighter composed_expression reads_expression level
  | signed => exact reads_unary reads_expression
  | stepped => exact reads_stepped reads_expression
  | primary => exact reads_grouping reads_expression

lemma explains_rule (category : Category) :
    Explains (rule category) (Completable (Derives category)) := by
  cases category with
  | expression => exact explains_assignment reads_expression explains_expression composed_expression
  | level level =>
    exact explains_climb_andTighter reads_expression explains_expression composed_expression level
  | signed => exact explains_unary reads_expression explains_expression
  | stepped => exact explains_stepped reads_expression explains_expression
  | primary => exact explains_grouping reads_expression explains_expression

/-- What follows an opening token has the tokens of the statement, as no opening token is kept. -/
lemma reads_tokens_statementRest {opener : Kind} (hopener : opener ∈ openers) :
    Reads (statementRest statement (some opener)) fun us s => s.tokens = kept us := by
  have hkept : opener.isKept = false := by
    revert hopener
    revert opener
    decide
  have htoken : (anyToken opener).kind ∈ openers := hopener
  have hreads : Reads (statementRest statement (some opener)) fun us s =>
      DerivesStmt (anyToken opener :: us) s :=
    reads_statementRest composed_statement advances_statement reads_statement
      leavesNoElse_statement htoken
  refine hreads.mono fun us s hs => ?_
  rw [hs.tokens_eq, kept_cons_of_kind (kind_anyToken opener) hkept]

lemma explains_rest {opener : Kind} (hopener : opener ∈ openers) :
    Explains (statementRest statement (some opener)) fun us =>
      Completable DerivesClosed (anyToken opener :: us) := by
  have htoken : (anyToken opener).kind ∈ openers := hopener
  exact explains_statementRest reads_statement explains_statement composed_statement
    advances_statement leavesNoElse_statement htoken

end Grammar

/-! ## Productions -/

namespace Production

/-- A property of all productions. -/
lemma rule_cases {P : Rule Phrase → Prop}
    (hcategory : ∀ category, P (ofExpression (Grammar.rule category)))
    (hprimary : P (ofExpression Grammar.primary))
    (hlist : P (Grammar.expressionList >>= fun es => pure (.expressionList es)))
    (hstatement : P (ofStatement Grammar.statement))
    (hrest : ∀ opener ∈ openers, P (ofStatement (statementRest Grammar.statement (some opener))))
    (production : Production) : P production.rule := by
  cases production with
  | expression =>
    have hexpression := hcategory .expression
    rwa [Grammar.rule, ruleWith, ← expression_eq] at hexpression
  | assignment => exact hcategory .expression
  | level level => exact hcategory (.level level)
  | unary => exact hcategory .signed
  | grouping => exact hcategory .primary
  | primary => exact hprimary
  | expressionList => exact hlist
  | statement => exact hstatement
  | printRest => exact hrest .printWord (by decide)
  | ifRest => exact hrest .ifWord (by decide)
  | whileRest => exact hrest .whileWord (by decide)
  | forRest => exact hrest .forWord (by decide)
  | blockRest => exact hrest .leftBrace (by decide)

theorem composed (production : Production) : Composed production.rule := by
  refine rule_cases (P := Composed) (fun category => ?_) ?_ ?_ ?_ (fun opener _ => ?_) production
  · exact .bind (composed_ruleWith composed_expression category) fun _ => .pure _
  · exact .bind composed_primary fun _ => .pure _
  · exact .bind composed_expressionList fun _ => .pure _
  · exact .bind composed_statement fun _ => .pure _
  · exact .bind (composed_statementRest composed_statement advances_statement (some opener))
      fun _ => .pure _

/-- What is read has the tokens that are consumed, without punctuation and reserved words. -/
theorem reads (production : Production) :
    Reads production.rule fun us phrase => phrase.tokens = kept us := by
  refine rule_cases (P := fun rule => Reads rule fun us phrase => phrase.tokens = kept us)
    (fun category => ?_) ?_ ?_ ?_ (fun opener hopener => ?_) production
  · exact .bind_pure ((reads_rule category).mono fun _ _ he => he.tokens_eq)
  · exact .bind_pure (reads_primary.mono fun _ _ he => he.tokens_eq)
  · exact .bind_pure (reads_expressionList.mono fun _ _ hes => hes.tokens_eq)
  · exact .bind_pure (reads_statement.mono fun _ _ hs => hs.tokens_eq)
  · exact .bind_pure (reads_tokens_statementRest hopener)

/-- What fails blames the next token, or a malformed number that it has just consumed. -/
theorem explains (production : Production) : Explains production.rule fun _ => True := by
  refine rule_cases (P := fun rule => Explains rule fun _ => True)
    (fun category => ?_) ?_ ?_ ?_ (fun opener hopener => ?_) production
  · exact .bind_pure ((explains_rule category).mono fun _ _ => trivial)
  · exact .bind_pure (explains_primary.mono fun _ _ => trivial)
  · exact .bind_pure (explains_expressionList.mono fun _ _ => trivial)
  · exact .bind_pure (explains_statement.mono fun _ _ => trivial)
  · exact .bind_pure ((explains_rest hopener).mono fun _ _ => trivial)

end Production

end ImpSyntax
