import ImpSyntax.Grammar.Statement
import ImpSyntax.Proofs.Grammar.Derivation
import ImpSyntax.Proofs.Rule.Recursion

/-!
# The grammar rules as equations

Each rule of the grammar is restated with `Rule.choose`, so that every decision it makes by the next
token has one shape.  From these forms it is read off that every rule is composed, which gives it a
suffix to leave and one token of lookahead, and that rules that contain whole expressions or
statements use them only after a token.  Hence the recursive rules solve their equations
(`expression_eq`, `statement_eq`), and rules that succeed have consumed a token.

`Grammar.rule` names the rule that reads a category of expressions.
-/

namespace ImpSyntax

open Rule

namespace Grammar

variable {inner other : Rule Expr}

/-! ## Rules of expressions -/

lemma primary_eq :
    primary = convert [.number] numberValue? Expr.number
      (choose [.identifier] (fun token => pure (.var token)) (failHere .expectedOperand)) := by
  unfold primary
  rw [accept_bind, convert]
  congr 1
  funext token
  dsimp only
  cases numberValue? token.text <;> rfl

lemma primary_of_number {token : Token} {rest : List Token} (hkind : token.kind = .number) :
    primary (token :: rest) =
      (match numberValue? token.text with
        | some value => pure (.number value token)
        | none => fail ⟨.malformedNumber token.text, some token.line⟩ : Rule Expr) rest := by
  rw [primary_eq, convert, choose_of_mem (by simp [hkind])]
  cases numberValue? token.text <;> rfl

lemma grouping_eq (inner : Rule Expr) :
    grouping inner = choose [.leftParen]
      (fun _ => inner >>= fun e => require [.rightParen] >>= fun _ => pure e) primary :=
  accept_bind _ _

/-- An operand with its step. -/
def stepped (inner : Rule Expr) : Rule Expr :=
  grouping inner >>= fun operand =>
    choose Kind.steps (fun step => pure (.unary step operand)) (pure operand)

lemma unary_eq (inner : Rule Expr) :
    unary inner = many (accept Kind.signs) >>= fun signs =>
      stepped inner >>= fun e => pure (signs.foldr Expr.unary e) := by
  unfold unary stepped
  congr 1
  funext signs
  rw [bind_bind]
  congr 1
  funext operand
  rw [choose_bind]
  exact accept_bind _ _

lemma operation?_eq (kinds : List Kind) (operand : Rule Expr) :
    operation? kinds operand = choose kinds
      (fun operator => operand >>= fun e => pure (some (operator, e))) (pure none) :=
  accept_bind _ _

/-- The operations that follow an expression, applied to it. -/
def continueRun (kinds : List Kind) (operand : Rule Expr) (left : Expr) : Rule Expr := do
  let operations ← many (operation? kinds operand)
  return operations.foldl extend left

lemma leftRun_eq (kinds : List Kind) (operand : Rule Expr) :
    leftRun kinds operand = operand >>= continueRun kinds operand := rfl

lemma assignment_eq (inner : Rule Expr) :
    assignment inner = climb Level.loosestFirst inner >>= fun left =>
      choose Kind.assignments
        (fun operator => inner >>= fun e => pure (.binary operator left e)) (pure left) := by
  unfold assignment
  congr 1
  funext left
  exact accept_bind _ _

/-- The rule that reads a category, where `inner` reads whole expressions. -/
def ruleWith (inner : Rule Expr) : Category → Rule Expr
  | .expression => assignment inner
  | .level level => climb level.andTighter inner
  | .signed => unary inner
  | .stepped => stepped inner
  | .primary => grouping inner

lemma climb_andTighter (level : Level) (inner : Rule Expr) :
    climb level.andTighter inner = leftRun level.operators (ruleWith inner level.operand) := by
  cases level <;> rfl

lemma composed_primary : Composed primary := by
  rw [primary_eq]
  exact .convert _ _ _ (.choose (fun _ => .pure _) (.failHere _))

lemma composed_grouping (hinner : Composed inner) : Composed (grouping inner) := by
  rw [grouping_eq]
  refine .choose (fun _ => ?_) composed_primary
  exact .bind hinner fun _ => .bind (.require _) fun _ => .pure _

lemma composed_stepped (hinner : Composed inner) : Composed (stepped inner) :=
  .bind (composed_grouping hinner) fun _ => .choose (fun _ => .pure _) (.pure _)

lemma composed_unary (hinner : Composed inner) : Composed (unary inner) := by
  rw [unary_eq]
  refine .bind (.many (.accept _) (itemAdvances_accept _)) fun _ => ?_
  exact .bind (composed_stepped hinner) fun _ => .pure _

lemma composed_operation? {kinds : List Kind} {operand : Rule Expr} (hoperand : Composed operand) :
    Composed (operation? kinds operand) := by
  rw [operation?_eq]
  exact .choose (fun _ => .bind hoperand fun _ => .pure _) (.pure _)

lemma itemAdvances_operation? {kinds : List Kind} {operand : Rule Expr}
    (hoperand : Composed operand) : ItemAdvances (operation? kinds operand) := by
  rw [operation?_eq]
  exact .choose (fun _ => .bind hoperand fun _ => .pure _) itemAdvances_none

lemma composed_continueRun {kinds : List Kind} {operand : Rule Expr}
    (hoperand : Composed operand) (left : Expr) : Composed (continueRun kinds operand left) :=
  .bind (.many (composed_operation? hoperand) (itemAdvances_operation? hoperand)) fun _ => .pure _

lemma composed_climb_andTighter (hinner : Composed inner) (level : Level) :
    Composed (climb level.andTighter inner) := by
  refine Level.induction (P := fun category => Composed (ruleWith inner category))
    (composed_unary hinner) ?_ level
  intro level hoperand
  rw [ruleWith, climb_andTighter, leftRun_eq]
  exact .bind hoperand fun left => composed_continueRun hoperand left

lemma composed_assignment (hinner : Composed inner) : Composed (assignment inner) := by
  rw [assignment_eq]
  refine .bind (composed_climb_andTighter hinner .logicalOr) fun left => ?_
  exact .choose (fun _ => .bind hinner fun _ => .pure _) (.pure left)

lemma composed_ruleWith (hinner : Composed inner) (category : Category) :
    Composed (ruleWith inner category) := by
  cases category with
  | expression => exact composed_assignment hinner
  | level level => exact composed_climb_andTighter hinner level
  | signed => exact composed_unary hinner
  | stepped => exact composed_stepped hinner
  | primary => exact composed_grouping hinner

/-! ### Recursion through expressions

Below, `inner` and `other` agree on inputs of fewer than `n` tokens, and the rules made of them
agree on those of fewer than `n + 1`, because a parenthesis or an operator comes before the use of
either.
-/

section Agreement

variable {n : Nat} (hinner : Composed inner) (h : AgreeBelow n inner other)
include hinner h

lemma agree_grouping : AgreeBelow (n + 1) (grouping inner) (grouping other) := by
  rw [grouping_eq, grouping_eq]
  exact .choose (fun _ => .bind hinner h fun _ => .rfl) .rfl

lemma agree_unary : AgreeBelow (n + 1) (unary inner) (unary other) := by
  rw [unary_eq, unary_eq]
  refine .bind (.many (.accept _) (itemAdvances_accept _)) .rfl fun _ => ?_
  refine .bind (composed_stepped hinner) ?_ fun _ => .rfl
  exact .bind (composed_grouping hinner) (agree_grouping hinner h) fun _ => .rfl

lemma agree_climb_andTighter (level : Level) :
    AgreeBelow (n + 1) (climb level.andTighter inner) (climb level.andTighter other) := by
  refine Level.induction (P := fun category =>
    Composed (ruleWith inner category) ∧
      AgreeBelow (n + 1) (ruleWith inner category) (ruleWith other category))
    ⟨composed_unary hinner, agree_unary hinner h⟩ ?_ level |>.2
  rintro level ⟨hcomposed, hoperand⟩
  refine ⟨composed_climb_andTighter hinner level, ?_⟩
  rw [ruleWith, ruleWith, climb_andTighter, climb_andTighter, leftRun_eq, leftRun_eq]
  have hoperation : AgreeBelow (n + 1) (operation? level.operators (ruleWith inner level.operand))
      (operation? level.operators (ruleWith other level.operand)) := by
    rw [operation?_eq, operation?_eq]
    exact .choose (fun _ => .bind hcomposed (hoperand.mono (Nat.le_succ n)) fun _ => .rfl) .rfl
  refine .bind hcomposed hoperand fun left => ?_
  exact .bind (.many (composed_operation? hcomposed) (itemAdvances_operation? hcomposed))
    (.many (composed_operation? hcomposed) hoperation) fun _ => .rfl

lemma agree_assignment : AgreeBelow (n + 1) (assignment inner) (assignment other) := by
  rw [assignment_eq, assignment_eq]
  refine .bind (composed_climb_andTighter hinner .logicalOr)
    (agree_climb_andTighter hinner h .logicalOr) fun left => ?_
  exact .choose (fun _ => .bind hinner h fun _ => .rfl) .rfl

end Agreement

lemma guarded_assignment : Guarded Composed assignment where
  composed_of := id
  base := .failHere _
  keeps := composed_assignment
  agree := agree_assignment

theorem expression_eq : expression = assignment expression :=
  guarded_assignment.fix_eq

theorem composed_expression : Composed expression :=
  guarded_assignment.composed

/-- The rule that reads a category. -/
abbrev rule (category : Category) : Rule Expr :=
  ruleWith expression category

/-! ### Progress of expressions -/

lemma advances_primary : Advances primary := by
  rw [primary_eq]
  exact .convert (.choose (fun _ => .pure _) (advances_failHere _))

lemma advances_grouping (hinner : Composed inner) : Advances (grouping inner) := by
  rw [grouping_eq]
  refine .choose (fun _ => ?_) advances_primary
  exact .bind hinner fun _ => .bind (.require _) fun _ => .pure _

lemma advances_unary (hinner : Composed inner) : Advances (unary inner) := by
  rw [unary_eq]
  refine .bind_right (.many (.accept _) (itemAdvances_accept _)) fun _ => ?_
  refine .bind_left ?_ fun _ => .pure _
  exact .bind_left (advances_grouping hinner) fun _ => .choose (fun _ => .pure _) (.pure _)

lemma advances_climb_andTighter (hinner : Composed inner) (level : Level) :
    Advances (climb level.andTighter inner) := by
  refine Level.induction (P := fun category => Advances (ruleWith inner category))
    (advances_unary hinner) ?_ level
  intro level hoperand
  rw [ruleWith, climb_andTighter, leftRun_eq]
  exact .bind_left hoperand (composed_continueRun (composed_ruleWith hinner _))

theorem advances_expression : Advances expression := by
  rw [expression_eq, assignment_eq]
  refine .bind_left (advances_climb_andTighter composed_expression .logicalOr) fun left => ?_
  exact .choose (fun _ => .bind composed_expression fun _ => .pure _) (.pure left)

/-! ## Lists of expressions and conditions -/

lemma nextExpression?_eq :
    nextExpression? =
      choose [.comma] (fun _ => expression >>= fun e => pure (some e)) (pure none) :=
  accept_bind _ _

lemma composed_nextExpression? : Composed nextExpression? := by
  rw [nextExpression?_eq]
  exact .choose (fun _ => .bind composed_expression fun _ => .pure _) (.pure _)

lemma itemAdvances_nextExpression? : ItemAdvances nextExpression? := by
  rw [nextExpression?_eq]
  exact .choose (fun _ => .bind composed_expression fun _ => .pure _) itemAdvances_none

lemma composed_expressionList : Composed expressionList :=
  .bind composed_expression fun _ =>
    .bind (.many composed_nextExpression? itemAdvances_nextExpression?) fun _ => .pure _

lemma advances_expressionList : Advances expressionList :=
  .bind_left advances_expression fun _ =>
    .bind (.many composed_nextExpression? itemAdvances_nextExpression?) fun _ => .pure _

lemma composed_condition : Composed condition :=
  .bind (.require _) fun _ => .bind composed_expression fun _ => .bind (.require _) fun _ => .pure _

/-! ## Rules of statements -/

section Statements

variable {inner other : Rule Stmt}

lemma ifRest_eq (inner : Rule Stmt) :
    ifRest inner = condition >>= fun c => inner >>= fun body =>
      choose [.elseWord] (fun _ => inner >>= fun alternative => pure (.ifElse c body alternative))
        (pure (.ifThen c body)) := by
  unfold ifRest
  congr 1
  funext c
  congr 1
  funext body
  exact accept_bind _ _

lemma blockItem?_eq (inner : Rule Stmt) :
    blockItem? inner = choose [.rightBrace] (fun _ => pure none)
      (atEnd >>= fun ended =>
        if ended then unexpected [.rightBrace] else inner >>= fun s => pure (some s)) := rfl

lemma simple_eq :
    simple = choose [.semicolon] (fun _ => pure .empty)
      (expressionList >>= fun es => require [.semicolon] >>= fun _ => pure (.eval es)) := rfl

lemma statementWith_eq (inner : Rule Stmt) :
    statementWith inner = choose openers (fun opener => statementRest inner (some opener.kind))
      simple :=
  accept_bind _ _

lemma composed_printRest : Composed printRest :=
  .bind (.require _) fun _ => .bind (.require _) fun _ => .pure _

lemma composed_ifRest (hinner : Composed inner) : Composed (ifRest inner) := by
  rw [ifRest_eq]
  refine .bind composed_condition fun _ => .bind hinner fun _ => ?_
  exact .choose (fun _ => .bind hinner fun _ => .pure _) (.pure _)

lemma composed_whileRest (hinner : Composed inner) : Composed (whileRest inner) :=
  .bind composed_condition fun _ => .bind hinner fun _ => .pure _

lemma composed_forRest (hinner : Composed inner) : Composed (forRest inner) :=
  .bind (.require _) fun _ => .bind hinner fun _ => .bind composed_expression fun _ =>
    .bind (.require _) fun _ => .bind composed_expressionList fun _ =>
      .bind (.require _) fun _ => .bind hinner fun _ => .pure _

lemma composed_blockItem? (hinner : Composed inner) : Composed (blockItem? inner) := by
  rw [blockItem?_eq]
  refine .choose (fun _ => .pure _) (.bind .atEnd fun ended => ?_)
  cases ended with
  | true => exact .unexpected _
  | false => exact .bind hinner fun _ => .pure _

/-- Whether there is another statement or the brace that closes the block, a token is taken. -/
lemma advances_blockItem? (hinner : Advances inner) : Advances (blockItem? inner) := by
  rw [blockItem?_eq]
  refine .choose (fun _ => .pure _) (.bind_right .atEnd fun ended => ?_)
  cases ended with
  | true => exact advances_unexpected _
  | false => exact .bind_left hinner fun _ => .pure _

lemma itemAdvances_blockItem? (hinner : Advances inner) : ItemAdvances (blockItem? inner) :=
  fun _ _ _ hrun => advances_blockItem? hinner hrun

lemma composed_blockRest (hinner : Composed inner) (hadvances : Advances inner) :
    Composed (blockRest inner) :=
  .bind (.many (composed_blockItem? hinner) (itemAdvances_blockItem? hadvances)) fun _ => .pure _

lemma composed_simple : Composed simple := by
  rw [simple_eq]
  refine .choose (fun _ => .pure _) ?_
  exact .bind composed_expressionList fun _ => .bind (.require _) fun _ => .pure _

lemma advances_simple : Advances simple := by
  rw [simple_eq]
  refine .choose (fun _ => .pure _) ?_
  exact .bind_left advances_expressionList fun _ => .bind (.require _) fun _ => .pure _

/-- A property of all rules that follow an opening token. -/
lemma statementRest_cases {P : Rule Stmt → Prop} (hprint : P printRest) (hif : P (ifRest inner))
    (hwhile : P (whileRest inner)) (hfor : P (forRest inner)) (hblock : P (blockRest inner))
    (hsimple : P simple) (opener : Option Kind) : P (statementRest inner opener) := by
  unfold statementRest
  split <;> assumption

/-- A property of the rule that follows each opening token. -/
lemma statementRest_of_opener {P : Kind → Rule Stmt → Prop} (hprint : P .printWord printRest)
    (hif : P .ifWord (ifRest inner)) (hwhile : P .whileWord (whileRest inner))
    (hfor : P .forWord (forRest inner)) (hblock : P .leftBrace (blockRest inner)) {opener : Kind}
    (h : opener ∈ openers) : P opener (statementRest inner (some opener)) := by
  simp only [openers, List.mem_cons, List.not_mem_nil, or_false] at h
  rcases h with rfl | rfl | rfl | rfl | rfl
  · exact hprint
  · exact hif
  · exact hwhile
  · exact hfor
  · exact hblock

lemma composed_statementRest (hinner : Composed inner) (hadvances : Advances inner)
    (opener : Option Kind) : Composed (statementRest inner opener) :=
  statementRest_cases composed_printRest (composed_ifRest hinner) (composed_whileRest hinner)
    (composed_forRest hinner) (composed_blockRest hinner hadvances) composed_simple opener

lemma composed_statementWith (hinner : Composed inner) (hadvances : Advances inner) :
    Composed (statementWith inner) := by
  rw [statementWith_eq]
  exact .choose (fun _ => composed_statementRest hinner hadvances _) composed_simple

lemma advances_statementWith (hinner : Composed inner) (hadvances : Advances inner) :
    Advances (statementWith inner) := by
  rw [statementWith_eq]
  exact .choose (fun _ => composed_statementRest hinner hadvances _) advances_simple

/-! ### Recursion through statements

What follows an opening token may use whole statements at once, so the rules for it agree where
`inner` and `other` do; the opening token makes the difference of one.
-/

section Agreement

variable {n : Nat} (hinner : Composed inner) (h : AgreeBelow n inner other)
include hinner h

lemma agree_ifRest : AgreeBelow n (ifRest inner) (ifRest other) := by
  rw [ifRest_eq, ifRest_eq]
  refine .bind composed_condition .rfl fun c => .bind hinner h fun body => ?_
  cases n with
  | zero => exact fun _ hlt => absurd hlt (Nat.not_lt_zero _)
  | succ n =>
    exact .choose (fun _ => .bind hinner (h.mono (Nat.le_succ n)) fun _ => .rfl) .rfl

lemma agree_whileRest : AgreeBelow n (whileRest inner) (whileRest other) :=
  .bind composed_condition .rfl fun _ => .bind hinner h fun _ => .rfl

lemma agree_forRest : AgreeBelow n (forRest inner) (forRest other) :=
  .bind (.require _) .rfl fun _ => .bind hinner h fun _ => .bind composed_expression .rfl fun _ =>
    .bind (.require _) .rfl fun _ => .bind composed_expressionList .rfl fun _ =>
      .bind (.require _) .rfl fun _ => .bind hinner h fun _ => .rfl

lemma agree_blockItem? : AgreeBelow n (blockItem? inner) (blockItem? other) := by
  rw [blockItem?_eq, blockItem?_eq]
  refine .bind (.accept _) .rfl ?_
  rintro (_ | _)
  · refine .bind .atEnd .rfl fun ended => ?_
    cases ended with
    | true => exact .rfl
    | false => exact .bind hinner h fun _ => .rfl
  · exact .rfl

lemma agree_blockRest (hadvances : Advances inner) :
    AgreeBelow n (blockRest inner) (blockRest other) :=
  .bind (.many (composed_blockItem? hinner) (itemAdvances_blockItem? hadvances))
    (.many (composed_blockItem? hinner) (agree_blockItem? hinner h)) fun _ => .rfl

lemma agree_statementRest (hadvances : Advances inner) (opener : Option Kind) :
    AgreeBelow n (statementRest inner opener) (statementRest other opener) := by
  unfold statementRest
  split
  · exact .rfl
  · exact agree_ifRest hinner h
  · exact agree_whileRest hinner h
  · exact agree_forRest hinner h
  · exact agree_blockRest hinner h hadvances
  · exact .rfl

end Agreement

lemma guarded_statementWith :
    Guarded (fun inner => Composed inner ∧ Advances inner) statementWith where
  composed_of := And.left
  base := ⟨.failHere _, advances_failHere _⟩
  keeps h := ⟨composed_statementWith h.1 h.2, advances_statementWith h.1 h.2⟩
  agree := by
    intro n inner other hinner h
    rw [statementWith_eq, statementWith_eq]
    exact .choose (fun _ => agree_statementRest hinner.1 h hinner.2 _) .rfl

theorem statement_eq : statement = statementWith statement :=
  guarded_statementWith.fix_eq

theorem composed_statement : Composed statement :=
  guarded_statementWith.composed

theorem advances_statement : Advances statement :=
  fun tokens _ _ hrun =>
    (guarded_statementWith.keeps (guarded_statementWith.unfold_keeps tokens)).2 hrun

end Statements

/-! ## Programs -/

lemma programItem?_eq :
    programItem? = atEnd >>= fun ended =>
      if ended then pure none else statement >>= fun s => pure (some s) := rfl

lemma composed_programItem? : Composed programItem? := by
  refine .bind .atEnd fun ended => ?_
  cases ended with
  | true => exact .pure _
  | false => exact .bind composed_statement fun _ => .pure _

lemma itemAdvances_programItem? : ItemAdvances programItem? := by
  rw [programItem?_eq]
  intro tokens s rest hrun
  obtain ⟨ended, middle, hended, hitem⟩ := bind_eq_done.1 hrun
  injection hended with _ hmiddle
  subst hmiddle
  cases ended with
  | true => exact absurd hitem (by simp)
  | false => exact ItemAdvances.of_advances advances_statement hitem

theorem composed_program : Composed program :=
  .many composed_programItem? itemAdvances_programItem?

end Grammar

end ImpSyntax
