import ImpSyntax.Proofs.Grammar.Repetition

/-!
# What is derivable is read

The converse of soundness: in front of tokens that cannot extend it, a derived phrase is read as
what it is derived as.  Which tokens extend a phrase depends on its category alone
(`Category.extenders`), and a statement is extended by an `else` only, if it ends open.

The rules decide by one token and never go back, so at every place two things have to be known:
which tokens a phrase may begin with (`Derives.nextIs_starts`,
`DerivesStmt.nextIs_statementStarts`), so that the right branch is taken, and which tokens may
follow it, so that no repetition goes on too long.  An operator ends the operand before it, since it
is of a looser level (`Level.not_mem_extenders_operand`).

At a level, operands are derived from the left while the rule has a loop.  The induction therefore
says of a level not that the phrase is read, but that reading it leaves the loop with the phrase as
its left operand (`Completes`).
-/

namespace ImpSyntax

/-- The kinds of token that would extend a phrase of a category. -/
def Category.extenders : Category → List Kind
  | .expression =>
    Kind.assignments ++ Level.loosestFirst.flatMap Level.operators ++ Kind.steps
  | .level l => l.andTighter.flatMap Level.operators ++ Kind.steps
  | .signed => Kind.steps
  | .stepped => Kind.steps
  | .primary => []

lemma Level.not_mem_extenders_operand {level : Level} {kind : Kind}
    (h : kind ∈ level.operators) : kind ∉ level.operand.extenders := by
  revert kind
  cases level <;> decide

lemma Level.extenders_operand_subset (level : Level) :
    level.operand.extenders ⊆ (Category.level level).extenders := by
  cases level <;> decide

lemma Level.operators_subset_extenders (level : Level) :
    level.operators ⊆ (Category.level level).extenders := by
  cases level <;> decide

/-- What extends a tighter level extends the operands of a looser one. -/
lemma Level.extenders_subset_operand {level looser : Level}
    (h : (Category.level level).extenders ⊆ (Category.level looser).extenders)
    (hne : level ≠ looser) : (Category.level level).extenders ⊆ looser.operand.extenders := by
  revert h hne
  cases level <;> cases looser <;> decide

lemma Category.extenders_subset_expression (category : Category) :
    category.extenders ⊆ Category.expression.extenders := by
  cases category with
  | level level => cases level <;> decide
  | _ => decide

lemma Kind.assignments_subset_extenders : Kind.assignments ⊆ Category.expression.extenders := by
  decide

lemma Kind.not_mem_extenders_of_assignment {kind : Kind} (h : kind ∈ Kind.assignments) :
    kind ∉ (Category.level .logicalOr).extenders := by
  revert kind
  decide

namespace Grammar

open Rule

/-! ## First tokens -/

/-- The kinds of token that a primary expression may begin with. -/
def primaryStarts : List Kind :=
  [.number, .identifier, .leftParen]

/-- The kinds of token that an expression may begin with. -/
def expressionStarts : List Kind :=
  primaryStarts ++ Kind.signs

/-- The kinds of token that a statement may begin with. -/
def statementStarts : List Kind :=
  openers ++ .semicolon :: expressionStarts

/-- The kinds of token that a phrase of a category may begin with. -/
def starts : Category → List Kind
  | .primary => primaryStarts
  | .stepped => primaryStarts
  | _ => expressionStarts

lemma starts_level (level : Level) : starts (.level level) = expressionStarts := rfl

lemma starts_subset (category : Category) : starts category ⊆ expressionStarts := by
  cases category with
  | level level => exact List.Subset.refl _
  | _ => decide

lemma starts_operand (level : Level) : starts level.operand = expressionStarts := by
  cases level <;> rfl

lemma Derives.nextIs_starts {category : Category} {tokens : List Token} {e : Expr}
    (h : Derives category tokens e) (rest : List Token) :
    NextIs (starts category) (tokens ++ rest) := by
  induction h generalizing rest with
  | number hkind _ => simp [starts, primaryStarts, hkind]
  | var hkind => simp [starts, primaryStarts, hkind]
  | parens hleft _ _ _ => simp [starts, primaryStarts, hleft]
  | unstepped _ ih => exact ih rest
  | @step operator tokens e _ _ ih =>
    rw [List.append_assoc]
    exact ih _
  | unsigned _ ih => exact (ih rest).mono (starts_subset .stepped)
  | sign hoperator _ _ => exact List.mem_append_right _ (Use.sign_mem.1 hoperator)
  | @operand level tokens e _ ih =>
    rw [starts_level, ← starts_operand level]
    exact ih rest
  | operation _ _ _ iha _ => simpa using iha _
  | unassigned _ ih => exact ih rest
  | @assignment operator us vs a b _ _ _ iha _ =>
    rw [List.append_assoc]
    exact iha _

lemma Derives.nextIs_expressionStarts {category : Category} {tokens : List Token} {e : Expr}
    (h : Derives category tokens e) (rest : List Token) :
    NextIs expressionStarts (tokens ++ rest) :=
  (h.nextIs_starts rest).mono (starts_subset category)

lemma DerivesList.nextIs_expressionStarts {tokens : List Token} {es : List Expr}
    (h : DerivesList tokens es) (rest : List Token) :
    NextIs expressionStarts (tokens ++ rest) := by
  cases h with
  | one he => exact he.nextIs_expressionStarts rest
  | more he _ _ => simpa using he.nextIs_expressionStarts _

lemma DerivesStmt.nextIs_statementStarts {tokens : List Token} {s : Stmt}
    (h : DerivesStmt tokens s) (rest : List Token) : NextIs statementStarts (tokens ++ rest) := by
  have hopener : ∀ {opener : Token} {others : List Token}, opener.kind ∈ openers →
      NextIs statementStarts (opener :: others) :=
    fun hkind => List.mem_append_left _ hkind
  cases h with
  | print hword _ _ => exact hopener (by simp [hword, openers])
  | ifThen hword _ _ => exact hopener (by simp [hword, openers])
  | ifElse hword _ _ _ _ _ => exact hopener (by simp [hword, openers])
  | whileLoop hword _ _ => exact hopener (by simp [hword, openers])
  | forLoop hword _ _ _ _ _ _ _ => exact hopener (by simp [hword, openers])
  | block hleft _ _ => exact hopener (by simp [hleft, openers])
  | eval hes _ =>
    have hstarts : expressionStarts ⊆ statementStarts := by decide
    simpa using (hes.nextIs_expressionStarts _).mono hstarts
  | empty hsemicolon => simp [statementStarts, hsemicolon]

/-- A token that cannot begin a phrase is not the next one. -/
lemma not_nextIs_of_starts {kinds starts : List Kind} {tokens : List Token}
    (h : NextIs starts tokens) (hdisjoint : ∀ kind ∈ starts, kind ∉ kinds) :
    ¬ NextIs kinds tokens := by
  cases tokens with
  | nil => exact not_nextIs_nil
  | cons token rest => exact hdisjoint token.kind h

/-! ## Expressions -/

lemma grouping_number (inner : Rule Expr) {token : Token} {value : Binary64} {rest : List Token}
    (hkind : token.kind = .number) (hvalue : numberValue? token.text = some value) :
    grouping inner (token :: rest) = .done (.number value token) rest := by
  rw [grouping_eq, choose_of_not_nextIs (by simp [hkind]), primary_of_number hkind, hvalue]
  rfl

lemma grouping_var (inner : Rule Expr) {token : Token} {rest : List Token}
    (hkind : token.kind = .identifier) :
    grouping inner (token :: rest) = .done (.var token) rest := by
  rw [grouping_eq, choose_of_not_nextIs (by simp [hkind]), primary_eq, convert,
    choose_of_not_nextIs (by simp [hkind]), choose_of_mem (by simp [hkind])]
  rfl

lemma continueRun_of_not_nextIs {kinds : List Kind} {operand : Rule Expr}
    (hoperand : Composed operand) {left : Expr} {rest : List Token} (h : ¬ NextIs kinds rest) :
    continueRun kinds operand left rest = .done left rest := by
  rw [continueRun_eq hoperand, choose_of_not_nextIs h]
  rfl

lemma composed_rule (category : Category) : Composed (rule category) :=
  composed_ruleWith composed_expression category

/-- The rule of the category gets past the tokens and has made `e` of them.  At a level it is then
about to look for another operation. -/
def Completes (tokens : List Token) (e : Expr) : Category → Prop
  | .level level => ∀ rest, ¬ NextIs level.operand.extenders rest →
      rule (.level level) (tokens ++ rest) =
        continueRun level.operators (rule level.operand) e rest
  | category => ∀ rest, ¬ NextIs category.extenders rest →
      rule category (tokens ++ rest) = .done e rest

lemma Completes.rule_eq {tokens rest : List Token} {e : Expr} {category : Category}
    (h : Completes tokens e category) (hrest : ¬ NextIs category.extenders rest) :
    rule category (tokens ++ rest) = .done e rest := by
  cases category with
  | level level =>
    have hoperand : ¬ NextIs level.operand.extenders rest :=
      fun hnext => hrest (hnext.mono level.extenders_operand_subset)
    have hoperators : ¬ NextIs level.operators rest :=
      fun hnext => hrest (hnext.mono level.operators_subset_extenders)
    rw [h rest hoperand, continueRun_of_not_nextIs (composed_rule _) hoperators]
  | expression => exact h rest hrest
  | signed => exact h rest hrest
  | stepped => exact h rest hrest
  | primary => exact h rest hrest

theorem completes_of_derives {category : Category} {tokens : List Token} {e : Expr}
    (h : Derives category tokens e) : Completes tokens e category := by
  induction h with
  | number hkind hvalue => exact fun rest _ => grouping_number expression hkind hvalue
  | var hkind => exact fun rest _ => grouping_var expression hkind
  | @parens left right tokens e hleft _ hright ih =>
    intro rest _
    have hinner : expression (tokens ++ right :: rest) = .done e (right :: rest) := by
      rw [expression_eq]
      exact ih.rule_eq (not_nextIs_of_kind hright (by decide))
    show grouping expression (left :: (tokens ++ [right]) ++ rest) = .done e rest
    rw [grouping_eq, List.cons_append, choose_of_mem (by simp [hleft]), List.append_assoc,
      List.singleton_append, bind_of_done hinner, bind_of_done (require_of_mem (by simp [hright]))]
    rfl
  | @unstepped tokens e _ ih =>
    intro rest hrest
    have hoperand : grouping expression (tokens ++ rest) = .done e rest :=
      ih rest not_nextIs_of_no_kind
    have hstep : ¬ NextIs Kind.steps rest := hrest
    show stepped expression (tokens ++ rest) = .done e rest
    rw [stepped, bind_of_done hoperand, choose_of_not_nextIs hstep]
    rfl
  | @step operator tokens e _ hoperator ih =>
    intro rest _
    have hoperand : grouping expression (tokens ++ operator :: rest) = .done e (operator :: rest) :=
      ih _ not_nextIs_of_no_kind
    show stepped expression (tokens ++ [operator] ++ rest) = .done (.unary operator e) rest
    rw [List.append_assoc, List.singleton_append, stepped, bind_of_done hoperand,
      choose_of_mem (Use.step_mem.1 hoperator)]
    rfl
  | @unsigned tokens e he ih =>
    intro rest hrest
    have hunsigned : ¬ NextIs Kind.signs (tokens ++ rest) :=
      not_nextIs_of_starts (he.nextIs_starts rest) (by decide)
    show unary expression (tokens ++ rest) = .done e rest
    rw [unary_eq_choose, choose_of_not_nextIs hunsigned]
    exact ih rest hrest
  | @sign operator tokens e hoperator _ ih =>
    intro rest hrest
    have hoperand : unary expression (tokens ++ rest) = .done e rest := ih rest hrest
    show unary expression (operator :: tokens ++ rest) = .done (.unary operator e) rest
    rw [unary_eq_choose, List.cons_append, choose_of_mem (Use.sign_mem.1 hoperator),
      bind_of_done hoperand]
    rfl
  | @operand level tokens e _ ih =>
    intro rest hrest
    rw [rule, ruleWith, climb_andTighter, leftRun_eq]
    exact bind_of_done (ih.rule_eq hrest)
  | @operation level operator us vs a b _ hoperator _ iha ihb =>
    intro rest hrest
    rw [Use.operation_mem] at hoperator
    have hleft := iha (operator :: (vs ++ rest)) (level.not_mem_extenders_operand hoperator)
    have hright : rule level.operand (vs ++ rest) = .done b rest := ihb.rule_eq hrest
    rw [List.append_assoc, List.cons_append, hleft, continueRun_eq (composed_rule _),
      choose_of_mem hoperator, bind_of_done hright]
  | @unassigned tokens e _ ih =>
    intro rest hrest
    have hclimb : rule (.level .logicalOr) (tokens ++ rest) = .done e rest :=
      ih.rule_eq fun hnext => hrest (hnext.mono (Category.extenders_subset_expression _))
    have hassign : ¬ NextIs Kind.assignments rest :=
      fun hnext => hrest (hnext.mono (by decide))
    show assignment expression (tokens ++ rest) = .done e rest
    rw [assignment_eq]
    exact (bind_of_done hclimb).trans (choose_of_not_nextIs hassign)
  | @assignment operator us vs a b _ hoperator _ iha ihb =>
    intro rest hrest
    rw [Use.assignment_mem] at hoperator
    have hleft : rule (.level .logicalOr) (us ++ operator :: (vs ++ rest)) =
        .done a (operator :: (vs ++ rest)) :=
      iha.rule_eq (Kind.not_mem_extenders_of_assignment hoperator)
    have hright : expression (vs ++ rest) = .done b rest := by
      rw [expression_eq]
      exact ihb rest hrest
    show assignment expression (us ++ operator :: vs ++ rest) = .done (.binary operator a b) rest
    rw [assignment_eq, List.append_assoc, List.cons_append]
    refine (bind_of_done hleft).trans ?_
    rw [choose_of_mem hoperator, bind_of_done hright]
    rfl

/-- A derived expression is read in front of anything that does not extend it. -/
theorem expression_of_derives {tokens rest : List Token} {e : Expr}
    (h : Derives .expression tokens e) (hrest : ¬ NextIs Category.expression.extenders rest) :
    expression (tokens ++ rest) = .done e rest := by
  rw [expression_eq]
  exact (completes_of_derives h).rule_eq hrest

/-! ## Lists of expressions and conditions -/

/-- The kinds of token that would extend a list of expressions. -/
def listExtenders : List Kind :=
  .comma :: Category.expression.extenders

lemma expressionList_of_derives {tokens : List Token} {es : List Expr}
    (h : DerivesList tokens es) :
    ∀ rest, ¬ NextIs listExtenders rest → expressionList (tokens ++ rest) = .done es rest := by
  induction h with
  | @one tokens e he =>
    intro rest hrest
    have hextends : ¬ NextIs Category.expression.extenders rest :=
      fun hnext => hrest (hnext.mono (List.subset_cons_self _ _))
    have hcomma : ¬ NextIs [.comma] rest := fun hnext => hrest (hnext.mono (by decide))
    rw [expressionList_eq, bind_of_done (expression_of_derives he hextends),
      choose_of_not_nextIs hcomma]
    rfl
  | @more comma us vs e es he hcomma _ ih =>
    intro rest hrest
    have hextends : ¬ NextIs Category.expression.extenders (comma :: (vs ++ rest)) :=
      not_nextIs_of_kind hcomma (by decide)
    rw [List.append_assoc, List.cons_append, expressionList_eq,
      bind_of_done (expression_of_derives he hextends), choose_of_mem (by simp [hcomma]),
      bind_of_done (ih rest hrest)]
    rfl

lemma condition_of_derives {tokens : List Token} {e : Expr} (h : DerivesCondition tokens e)
    (rest : List Token) : condition (tokens ++ rest) = .done e rest := by
  cases h with
  | @parens left right tokens _ hleft he hright =>
    have hextends : ¬ NextIs Category.expression.extenders (right :: rest) :=
      not_nextIs_of_kind hright (by decide)
    have hinner := expression_of_derives he hextends
    rw [condition, List.cons_append, bind_of_done (require_of_mem (by simp [hleft])),
      List.append_assoc, List.singleton_append, bind_of_done hinner,
      bind_of_done (require_of_mem (by simp [hright]))]
    rfl

/-! ## Statements -/

/-- What follows an opening token is read by the rule for it. -/
lemma statement_of_opener {opener : Token} {kind : Kind} {rest : List Token}
    (hkind : opener.kind = kind) (h : kind ∈ openers) :
    statement (opener :: rest) = statementRest statement (some kind) rest := by
  have hunfold : statement (opener :: rest) = statementWith statement (opener :: rest) :=
    congrFun statement_eq _
  rw [hunfold, statementWith_eq, choose_of_mem (hkind ▸ h), hkind]

lemma statement_of_no_opener {tokens : List Token} (h : ¬ NextIs openers tokens) :
    statement tokens = simple tokens := by
  rw [statement_eq, statementWith_eq, choose_of_not_nextIs h]

/-- The rule for statements reads the tokens as a statement, unless an `else` would extend it. -/
def CompletesStmt (tokens : List Token) (s : Stmt) : Prop :=
  ∀ rest, (s.endsOpen = true → ¬ NextIs [.elseWord] rest) →
    statement (tokens ++ rest) = .done s rest

/-- No statement begins with an `else`, so statements do not extend one before them. -/
lemma not_nextIs_else_of_parts {parts : List (List Token × Stmt)} {rest : List Token}
    (hparts : ∀ part ∈ parts, DerivesStmt part.1 part.2) (hrest : ¬ NextIs [.elseWord] rest) :
    ¬ NextIs [.elseWord] (parts.flatMap Prod.fst ++ rest) := by
  cases parts with
  | nil => exact hrest
  | cons part parts =>
    have hstarts := (hparts part List.mem_cons_self).nextIs_statementStarts
      (parts.flatMap Prod.fst ++ rest)
    rw [List.flatMap_cons, List.append_assoc]
    exact not_nextIs_of_starts hstarts (by decide)

lemma blockBody_of_parts {parts : List (List Token × Stmt)} {right : Token}
    (hparts : ∀ part ∈ parts, DerivesStmt part.1 part.2)
    (hcompletes : ∀ part ∈ parts, CompletesStmt part.1 part.2)
    (hright : right.kind = .rightBrace) (rest : List Token) :
    blockBody statement (parts.flatMap Prod.fst ++ right :: rest) =
      .done (parts.map Prod.snd) rest := by
  induction parts with
  | nil =>
    rw [blockBody_eq composed_statement advances_statement]
    exact choose_of_mem (by simp [hright])
  | cons part parts ih =>
    rw [List.forall_mem_cons] at hparts hcompletes
    have hnoElse : ¬ NextIs [.elseWord] (right :: rest) := by simp [hright]
    have hread := hcompletes.1 (parts.flatMap Prod.fst ++ right :: rest) fun _ =>
      not_nextIs_else_of_parts hparts.2 hnoElse
    have hstarts := hparts.1.nextIs_statementStarts (parts.flatMap Prod.fst ++ right :: rest)
    rw [List.flatMap_cons, List.append_assoc, blockBody_eq composed_statement advances_statement,
      choose_of_not_nextIs (not_nextIs_of_starts hstarts (by decide)),
      bind_of_done (atEnd_of_nextIs hstarts), if_neg Bool.false_ne_true, bind_of_done hread,
      bind_of_done (ih hparts.2 hcompletes.2)]
    rfl

theorem completesStmt_of_derives {tokens : List Token} {s : Stmt} (h : DerivesStmt tokens s) :
    CompletesStmt tokens s := by
  induction h with
  | @print word target semicolon hword htarget hsemicolon =>
    intro rest _
    show statement (word :: target :: semicolon :: rest) = _
    rw [statement_of_opener hword (by decide)]
    show printRest (target :: semicolon :: rest) = _
    rw [printRest, bind_of_done (require_of_mem (by simp [htarget])),
      bind_of_done (require_of_mem (by simp [hsemicolon]))]
    rfl
  | @ifThen word us vs c body hword hc _ ih =>
    intro rest hrest
    have helse : ¬ NextIs [.elseWord] rest := hrest rfl
    rw [List.cons_append, statement_of_opener hword (by decide)]
    show ifRest statement (us ++ vs ++ rest) = _
    rw [ifRest_eq, List.append_assoc, bind_of_done (condition_of_derives hc _),
      bind_of_done (ih rest fun _ => helse), choose_of_not_nextIs helse]
    rfl
  | @ifElse word elseWord us vs ws c body alternative hword hc _ hclosed helse _ ihbody ihalt =>
    intro rest hrest
    have hbody : statement (vs ++ elseWord :: (ws ++ rest)) =
        .done body (elseWord :: (ws ++ rest)) :=
      ihbody _ fun hopen => absurd hopen (by simp [hclosed])
    have halternative : statement (ws ++ rest) = .done alternative rest := ihalt rest hrest
    rw [List.cons_append, statement_of_opener hword (by decide)]
    show ifRest statement (us ++ (vs ++ elseWord :: ws) ++ rest) = _
    rw [ifRest_eq, List.append_assoc, bind_of_done (condition_of_derives hc _), List.append_assoc,
      List.cons_append, bind_of_done hbody, choose_of_mem (by simp [helse]),
      bind_of_done halternative]
    rfl
  | @whileLoop word us vs c body hword hc _ ih =>
    intro rest hrest
    rw [List.cons_append, statement_of_opener hword (by decide)]
    show whileRest statement (us ++ vs ++ rest) = _
    rw [whileRest, List.append_assoc, bind_of_done (condition_of_derives hc _),
      bind_of_done (ih rest hrest)]
    rfl
  | @forLoop word left semicolon right us vs ws xs c step first body hword hleft _ hc hsemicolon
      hstep hright _ ihfirst ihbody =>
    intro rest hrest
    have hnoElse : ¬ NextIs [.elseWord] (vs ++ semicolon :: (ws ++ right :: (xs ++ rest))) :=
      not_nextIs_of_starts (hc.nextIs_expressionStarts _) (by decide)
    have hfirst := ihfirst _ fun _ => hnoElse
    have hcondition : expression (vs ++ semicolon :: (ws ++ right :: (xs ++ rest))) =
        .done c (semicolon :: (ws ++ right :: (xs ++ rest))) :=
      expression_of_derives hc (not_nextIs_of_kind hsemicolon (by decide))
    have hlist := expressionList_of_derives hstep (right :: (xs ++ rest))
      (not_nextIs_of_kind hright (by decide))
    rw [List.cons_append, statement_of_opener hword (by decide)]
    show forRest statement (left :: (us ++ (vs ++ semicolon :: (ws ++ right :: xs))) ++ rest) = _
    simp only [List.cons_append, List.append_assoc]
    rw [forRest, bind_of_done (require_of_mem (by simp [hleft])), bind_of_done hfirst,
      bind_of_done hcondition, bind_of_done (require_of_mem (by simp [hsemicolon])),
      bind_of_done hlist, bind_of_done (require_of_mem (by simp [hright])),
      bind_of_done (ihbody rest hrest)]
    rfl
  | @block left right parts hleft hparts hright ih =>
    intro rest _
    have hbody := blockBody_of_parts hparts ih hright rest
    rw [List.cons_append, statement_of_opener hleft (by decide)]
    show blockRest statement (parts.flatMap Prod.fst ++ [right] ++ rest) = _
    rw [blockRest_eq, List.append_assoc, List.singleton_append, bind_of_done hbody]
    rfl
  | @eval semicolon tokens es hes hsemicolon =>
    intro rest _
    have hstarts := hes.nextIs_expressionStarts (semicolon :: rest)
    have hlist := expressionList_of_derives hes (semicolon :: rest)
      (not_nextIs_of_kind hsemicolon (by decide))
    rw [List.append_assoc, List.singleton_append,
      statement_of_no_opener (not_nextIs_of_starts hstarts (by decide)), simple_eq,
      choose_of_not_nextIs (not_nextIs_of_starts hstarts (by decide)), bind_of_done hlist,
      bind_of_done (require_of_mem (by simp [hsemicolon]))]
    rfl
  | @empty semicolon hsemicolon =>
    intro rest _
    rw [List.singleton_append, statement_of_no_opener (by simp [hsemicolon, openers]), simple_eq,
      choose_of_mem (by simp [hsemicolon])]
    rfl

/-! ## Programs -/

/-- A program goes on behind its first statement. -/
lemma program_of_statement {tokens rest : List Token} {s : Stmt}
    (h : statement tokens = .done s rest) :
    program tokens = (program >>= fun more => pure (s :: more)) rest := by
  have hunfold := congrFun program_eq tokens
  cases tokens with
  | nil => exact absurd (advances_statement h) (Nat.not_lt_zero _)
  | cons token others =>
    rw [hunfold, bind_of_done (atEnd_apply _), List.isEmpty_cons, if_neg Bool.false_ne_true,
      bind_of_done h]

/-- Derived statements are read one by one in front of anything but an `else`, and then the program
goes on with the tokens behind them. -/
theorem program_append {us vs : List Token} {p : Program} (h : DerivesProgram us p)
    (hvs : ¬ NextIs [.elseWord] vs) :
    program (us ++ vs) = (program >>= fun q => pure (p ++ q)) vs := by
  obtain ⟨parts, hparts, rfl, rfl⟩ := h
  induction parts with
  | nil => exact congrFun (then_pure program).symm vs
  | cons part parts ih =>
    rw [List.forall_mem_cons] at hparts
    have hnoElse : ¬ NextIs [.elseWord] (parts.flatMap Prod.fst ++ vs) :=
      not_nextIs_else_of_parts hparts.2 hvs
    have hread := completesStmt_of_derives hparts.1 (parts.flatMap Prod.fst ++ vs) fun _ => hnoElse
    rw [List.flatMap_cons, List.append_assoc, program_of_statement hread, bind_apply, ih hparts.2,
      ← bind_apply, bind_bind]
    rfl

theorem program_of_derives {tokens : List Token} {p : Program} (h : DerivesProgram tokens p) :
    program tokens = .done p [] := by
  have hend : program [] = .done [] [] := by
    rw [program_eq]
    rfl
  rw [← List.append_nil tokens, program_append h not_nextIs_nil, bind_of_done hend, pure_apply,
    List.append_nil]

end Grammar

end ImpSyntax
