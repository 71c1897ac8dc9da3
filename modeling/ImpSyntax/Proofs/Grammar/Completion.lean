import ImpSyntax.Proofs.Grammar.Soundness

/-!
# Failures and what could have followed

Where a rule fails, the tokens before the offending one can still be completed to a phrase of the
rule, and so they can after each token that the failure says is missing.  `Explains rule V` states
this, with `V` for the lists of tokens that can be completed; `Blames` has one constructor for each
way to fail and fixes the fault and the line of the failure from the offending token.

The completions are put together from the inside out.  When a part of a construct fails, its own
completion is followed by whatever the construct still lacks (`Completable.map`).  A statement is
always completed to one that no `else` can extend, for it may turn out to be the body of a
conditional that continues with one.

The main results are `explains_expression`, `explains_statement` and `explains_program`.
-/

namespace ImpSyntax

namespace Rule

variable {α β : Type}

/-- The token may begin an operand: it is a variable, an opening parenthesis or a proper number. -/
def BeginsOperand (token : Token) : Prop :=
  token.kind = .identifier ∨ token.kind = .leftParen ∨
    (token.kind = .number ∧ (numberValue? token.text).isSome = true)

/-- What a failure says about the tokens before the offending one and those from it on.  The tokens
that the failing rule leaves come last. -/
inductive Blames (V : List Token → Prop) (before ahead : List Token) :
    Failure → List Token → Prop where
  | missing {kind : Kind} (hnext : ¬ NextIs [kind] ahead)
      (hviable : ∀ token, token.kind = kind → V (before ++ [token])) :
      Blames V before ahead ⟨mismatch [kind] ahead, nextLine? ahead⟩ ahead
  | operand (hviable : ∀ token, BeginsOperand token → V (before ++ [token])) :
      Blames V before ahead ⟨.expectedOperand, nextLine? ahead⟩ ahead
  | malformed {token : Token} {rest : List Token} (hahead : ahead = token :: rest)
      (hkind : token.kind = .number) (hvalue : numberValue? token.text = none)
      (hviable : ∀ token, BeginsOperand token → V (before ++ [token])) :
      Blames V before ahead ⟨.malformedNumber token.text, some token.line⟩ rest

lemma Blames.map {V W : List Token → Prop} {before ahead rest : List Token} {failure : Failure}
    (h : Blames V before ahead failure rest) (more : List Token)
    (hmap : ∀ us, V us → W (more ++ us)) : Blames W (more ++ before) ahead failure rest := by
  cases h with
  | missing hnext hviable =>
    refine .missing hnext fun token hkind => ?_
    rw [List.append_assoc]
    exact hmap _ (hviable token hkind)
  | operand hviable =>
    refine .operand fun token hbegins => ?_
    rw [List.append_assoc]
    exact hmap _ (hviable token hbegins)
  | malformed hahead hkind hvalue hviable =>
    refine .malformed hahead hkind hvalue fun token hbegins => ?_
    rw [List.append_assoc]
    exact hmap _ (hviable token hbegins)

/-- Where the rule fails, the tokens before the offending one are in `V`, also together with each
token that the failure asks for. -/
def Explains (rule : Rule α) (V : List Token → Prop) : Prop :=
  ∀ ⦃tokens failure rest⦄, rule tokens = .failed failure rest →
    ∃ before ahead, tokens = before ++ ahead ∧ Blames V before ahead failure rest

lemma Explains.mono {rule : Rule α} {V W : List Token → Prop} (h : Explains rule V)
    (hmap : ∀ us, V us → W us) : Explains rule W := by
  intro tokens failure rest hrun
  obtain ⟨before, ahead, htokens, hblames⟩ := h hrun
  exact ⟨before, ahead, htokens, hblames.map [] hmap⟩

lemma explains_pure {a : α} {V : List Token → Prop} : Explains (pure a) V := by
  intro tokens failure rest hrun
  exact absurd hrun (by simp)

lemma Explains.bind {rule : Rule α} {next : α → Rule β} {V : List Token → Prop}
    {D : List Token → α → Prop} (hreads : Reads rule D) (hrule : Explains rule V)
    (hnext : ∀ a us, D us a → Explains (next a) fun vs => V (us ++ vs)) :
    Explains (rule >>= next) V := by
  intro tokens failure rest hrun
  rcases bind_eq_failed.1 hrun with hfirst | ⟨a, middle, hfirst, hsecond⟩
  · exact hrule hfirst
  · obtain ⟨us, rfl, hus⟩ := hreads hfirst
    obtain ⟨before, ahead, rfl, hblames⟩ := hnext a us hus hsecond
    exact ⟨us ++ before, ahead, by rw [List.append_assoc], hblames.map us fun _ => id⟩

/-- What is done to a construct afterwards needs no explanation. -/
lemma Explains.bind_pure {rule : Rule α} {f : α → β} {V : List Token → Prop}
    (h : Explains rule V) : Explains (rule >>= fun a => pure (f a)) V := by
  intro tokens failure rest hrun
  exact h (bind_pure_eq_failed.1 hrun)

lemma Explains.choose {kinds : List Kind} {taken : Token → Rule α} {otherwise : Rule α}
    {V : List Token → Prop}
    (htaken : ∀ token, token.kind ∈ kinds → Explains (taken token) fun us => V (token :: us))
    (hother : Explains otherwise V) : Explains (choose kinds taken otherwise) V := by
  intro tokens failure rest hrun
  rcases choose_cases kinds taken otherwise tokens with
    ⟨token, others, rfl, hkind, heq⟩ | ⟨-, heq⟩
  · rw [heq] at hrun
    obtain ⟨before, ahead, rfl, hblames⟩ := htaken token hkind hrun
    exact ⟨token :: before, ahead, rfl, hblames.map [token] fun _ => id⟩
  · rw [heq] at hrun
    exact hother hrun

lemma explains_require {kind : Kind} {V : List Token → Prop}
    (hviable : ∀ token, token.kind = kind → V [token]) : Explains (require [kind]) V := by
  intro tokens failure rest hrun
  obtain ⟨hnext, rfl, rfl⟩ := require_eq_failed.1 hrun
  exact ⟨[], rest, rfl, .missing hnext hviable⟩

lemma explains_expectedOperand {V : List Token → Prop}
    (hviable : ∀ token, BeginsOperand token → V [token]) :
    Explains (failHere .expectedOperand : Rule α) V := by
  intro tokens failure rest hrun
  injection hrun with hfailure hrest
  subst hfailure hrest
  exact ⟨[], tokens, rfl, .operand hviable⟩

end Rule

namespace Grammar

open Rule

/-- The tokens can be completed to a phrase that `L` describes. -/
def Completable {α : Type} (L : List Token → α → Prop) (us : List Token) : Prop :=
  ∃ vs a, L (us ++ vs) a

/-- A phrase around one that can be completed: `more` comes before it and `lacking` after it. -/
lemma Completable.map {α β : Type} {L : List Token → α → Prop} {M : List Token → β → Prop}
    {us : List Token} (h : Completable L us) (more lacking : List Token)
    (hmap : ∀ us a, L us a → ∃ b, M (more ++ (us ++ lacking)) b) : Completable M (more ++ us) := by
  obtain ⟨vs, a, ha⟩ := h
  obtain ⟨b, hb⟩ := hmap _ a ha
  refine ⟨vs ++ lacking, b, ?_⟩
  simpa using hb

/-! ## Expressions -/

/-- A token of a kind without a text of its own. -/
def anyToken (kind : Kind) : Token :=
  .ofKind kind 1

lemma kind_anyToken (kind : Kind) : (anyToken kind).kind = kind := rfl

/-- A variable is an expression. -/
lemma derives_anyVariable (category : Category) :
    Derives category [anyToken .identifier] (.var (anyToken .identifier)) :=
  Derives.of_primary (.var (kind_anyToken _)) category

lemma completable_of_beginsOperand {token : Token} (h : BeginsOperand token)
    (category : Category) : Completable (Derives category) [token] := by
  rcases h with hkind | hkind | ⟨hkind, hsome⟩
  · exact ⟨[], .var token, Derives.of_primary (.var hkind) category⟩
  · exact ⟨[anyToken .identifier, anyToken .rightParen], _,
      Derives.of_primary (.parens hkind (derives_anyVariable _) (kind_anyToken _)) category⟩
  · obtain ⟨value, hvalue⟩ := Option.isSome_iff_exists.1 hsome
    exact ⟨[], .number value token, Derives.of_primary (.number hkind hvalue) category⟩

section Expressions

variable {inner : Rule Expr}

lemma explains_primary : Explains primary (Completable (Derives .primary)) := by
  rw [primary_eq]
  intro tokens failure rest hrun
  rcases choose_cases [.number] _ _ tokens with ⟨token, others, rfl, hkind, heq⟩ | ⟨-, heq⟩
  · rw [convert, heq] at hrun
    have hkind : token.kind = .number := List.mem_singleton.1 hkind
    cases hvalue : numberValue? token.text with
    | some value => exact absurd hrun (by simp [hvalue])
    | none =>
      simp only [hvalue, fail, Outcome.failed.injEq] at hrun
      obtain ⟨rfl, rfl⟩ := hrun
      exact ⟨[], token :: others, rfl,
        .malformed rfl hkind hvalue fun _ h => completable_of_beginsOperand h _⟩
  · rw [convert, heq] at hrun
    have hexplains : Explains (choose [.identifier] (fun token => pure (Expr.var token))
        (failHere .expectedOperand)) (Completable (Derives .primary)) :=
      .choose (fun _ _ => explains_pure)
        (explains_expectedOperand fun _ h => completable_of_beginsOperand h _)
    exact hexplains hrun

/-- What a run of operations has read so far stays its left operand, also in a completion. -/
lemma explains_continueRun {level : Level} {operand : Rule Expr} (hcomposed : Composed operand)
    (hreads : Reads operand (Derives level.operand))
    (hoperand : Explains operand (Completable (Derives level.operand))) {us : List Token}
    {left : Expr} (hleft : Derives (.level level) us left) :
    Explains (continueRun level.operators operand left) fun vs =>
      Completable (Derives (.level level)) (us ++ vs) := by
  intro tokens
  induction hn : tokens.length using Nat.strongRecOn generalizing us left tokens with
  | _ n ih =>
    intro failure rest hrun
    rw [continueRun_eq hcomposed] at hrun
    rcases choose_cases level.operators _ _ tokens with
      ⟨operator, others, rfl, hoperator, heq⟩ | ⟨-, heq⟩
    · rw [heq] at hrun
      have huse : .operation level ∈ operator.kind.uses := Use.operation_mem.2 hoperator
      rcases bind_eq_failed.1 hrun with hright | ⟨right, middle, hright, hmore⟩
      · obtain ⟨before, ahead, rfl, hblames⟩ := hoperand hright
        refine ⟨operator :: before, ahead, rfl, hblames.map [operator] fun vs h => ?_⟩
        rw [← List.append_assoc]
        refine h.map (us ++ [operator]) [] fun vs b hb => ⟨.binary operator left b, ?_⟩
        simpa using Derives.operation hleft huse hb
      · have hlt : middle.length < n := by
          have hle := hcomposed.length_le hright
          simp only [List.length_cons] at hn
          omega
        obtain ⟨vs, rfl, hvs⟩ := hreads hright
        have hbinary : Derives (.level level) (us ++ operator :: vs)
            (.binary operator left right) := .operation hleft huse hvs
        obtain ⟨before, ahead, rfl, hblames⟩ := ih _ hlt hbinary rfl hmore
        refine ⟨operator :: (vs ++ before), ahead, by simp, ?_⟩
        refine hblames.map (operator :: vs) fun ws h => ?_
        simpa using h
    · rw [heq] at hrun
      exact absurd hrun (by simp)

variable (hreads : Reads inner (Derives .expression))
  (hinner : Explains inner (Completable (Derives .expression)))
include hreads hinner

lemma explains_grouping : Explains (grouping inner) (Completable (Derives .primary)) := by
  rw [grouping_eq]
  refine .choose (fun left hleft => ?_) explains_primary
  have hleft : left.kind = .leftParen := List.mem_singleton.1 hleft
  refine .bind hreads (hinner.mono fun us h => ?_) fun e us he => ?_
  · exact h.map [left] [anyToken .rightParen] fun us e he =>
      ⟨e, .parens hleft he (kind_anyToken _)⟩
  · refine .bind_pure (explains_require fun right hright => ?_)
    exact ⟨[], e, by simpa using Derives.parens hleft he hright⟩

lemma explains_stepped : Explains (stepped inner) (Completable (Derives .stepped)) := by
  refine .bind (reads_grouping hreads) ((explains_grouping hreads hinner).mono fun us h => ?_)
    fun operand us _ => .choose (fun _ _ => explains_pure) explains_pure
  exact h.map [] [] fun us e he => ⟨e, by simpa using Derives.unstepped he⟩

lemma explains_unary : Explains (unary inner) (Completable (Derives .signed)) := by
  have hstepped : Explains (stepped inner) (Completable (Derives .signed)) :=
    (explains_stepped hreads hinner).mono fun us h =>
      h.map [] [] fun us e he => ⟨e, by simpa using Derives.unsigned he⟩
  intro tokens
  induction tokens with
  | nil =>
    intro failure rest hrun
    rw [unary_eq_choose, choose_of_not_nextIs not_nextIs_nil] at hrun
    exact hstepped hrun
  | cons token tokens ih =>
    intro failure rest hrun
    rw [unary_eq_choose] at hrun
    by_cases hsign : token.kind ∈ Kind.signs
    · rw [choose_of_mem hsign, bind_pure_eq_failed] at hrun
      obtain ⟨before, ahead, htokens, hblames⟩ := ih hrun
      refine ⟨token :: before, ahead, by rw [htokens, List.cons_append], ?_⟩
      refine hblames.map [token] fun us h => h.map [token] [] fun us e he => ⟨.unary token e, ?_⟩
      simpa using Derives.sign (Use.sign_mem.2 hsign) he
    · rw [choose_of_not_nextIs (by simpa using hsign)] at hrun
      exact hstepped hrun

lemma explains_climb_andTighter (hcomposed : Composed inner) (level : Level) :
    Explains (climb level.andTighter inner) (Completable (Derives (.level level))) := by
  refine (Level.induction (P := fun category => Reads (ruleWith inner category) (Derives category) ∧
    Explains (ruleWith inner category) (Completable (Derives category)))
    ⟨reads_unary hreads, explains_unary hreads hinner⟩ ?_ level).2
  rintro level ⟨hoperand, hexplains⟩
  refine ⟨reads_climb_andTighter hcomposed hreads level, ?_⟩
  rw [ruleWith, climb_andTighter, leftRun_eq]
  refine .bind hoperand (hexplains.mono fun us h => ?_) fun left us hleft =>
    explains_continueRun (composed_ruleWith hcomposed _) hoperand hexplains hleft.operand
  exact h.map [] [] fun us e he => ⟨e, by simpa using Derives.operand he⟩

lemma explains_assignment (hcomposed : Composed inner) :
    Explains (assignment inner) (Completable (Derives .expression)) := by
  rw [assignment_eq]
  refine .bind (reads_climb_andTighter hcomposed hreads .logicalOr)
    ((explains_climb_andTighter hreads hinner hcomposed .logicalOr).mono fun us h => ?_)
    fun left us hleft => .choose (fun operator hoperator => ?_) explains_pure
  · exact h.map [] [] fun us e he => ⟨e, by simpa using Derives.unassigned he⟩
  · refine .bind_pure (hinner.mono fun vs h => ?_)
    have huse : .assignment ∈ operator.kind.uses := Use.assignment_mem.2 hoperator
    have hright := h.map (M := Derives .expression) (us ++ [operator]) [] fun vs b hb =>
      ⟨.binary operator left b, by simpa using Derives.assignment hleft huse hb⟩
    simpa using hright

end Expressions

theorem explains_expression : Explains expression (Completable (Derives .expression)) :=
  guarded_reads_assignment.induction (Q := fun tokens outcome => ∀ ⦃failure rest⦄,
      outcome = .failed failure rest → ∃ before ahead, tokens = before ++ ahead ∧
        Blames (Completable (Derives .expression)) before ahead failure rest)
    (explains_expectedOperand fun _ h => completable_of_beginsOperand h _)
    fun _ h hrule => explains_assignment h.2 hrule h.1

/-! ## Lists of expressions and conditions -/

lemma explains_expressionList : Explains expressionList (Completable DerivesList) := by
  intro tokens
  induction hn : tokens.length using Nat.strongRecOn generalizing tokens with
  | _ n ih =>
    intro failure rest hrun
    rw [expressionList_eq] at hrun
    rcases bind_eq_failed.1 hrun with hfirst | ⟨e, middle, he, hmore⟩
    · refine explains_expression.mono (fun us h => ?_) hfirst
      exact h.map [] [] fun us e he => ⟨[e], by simpa using DerivesList.one he⟩
    · have hlt := advances_expression he
      obtain ⟨us, rfl, hus⟩ := reads_expression he
      rcases choose_cases [.comma] _ _ middle with ⟨comma, others, rfl, hcomma, heq⟩ | ⟨-, heq⟩
      · have hcomma : comma.kind = .comma := List.mem_singleton.1 hcomma
        have hlt' : others.length < n := by
          simp only [List.length_append, List.length_cons] at hn
          omega
        rw [heq, bind_pure_eq_failed] at hmore
        obtain ⟨before, ahead, rfl, hblames⟩ := ih _ hlt' rfl hmore
        refine ⟨us ++ comma :: before, ahead, by simp, ?_⟩
        have hblames := hblames.map (W := Completable DerivesList) (us ++ [comma]) fun vs h =>
          h.map (us ++ [comma]) [] fun vs es hes =>
            ⟨e :: es, by simpa using DerivesList.more hus hcomma hes⟩
        simpa using hblames
      · rw [heq] at hmore
        exact absurd hmore (by simp)

lemma explains_condition : Explains condition (Completable DerivesCondition) := by
  refine .bind reads_require (explains_require fun left hleft => ?_) fun left us hus => ?_
  · exact ⟨[anyToken .identifier, anyToken .rightParen], _,
      .parens hleft (derives_anyVariable _) (kind_anyToken _)⟩
  · obtain ⟨rfl, hleft⟩ := hus
    refine .bind reads_expression (explains_expression.mono fun vs h => ?_) fun e vs he => ?_
    · exact h.map [left] [anyToken .rightParen] fun vs e he =>
        ⟨e, .parens hleft he (kind_anyToken _)⟩
    · refine .bind_pure (explains_require fun right hright => ?_)
      exact ⟨[], e, by simpa using DerivesCondition.parens hleft he hright⟩

/-! ## Statements -/

/-- The tokens are a statement that no `else` can extend. -/
def DerivesClosed (tokens : List Token) (s : Stmt) : Prop :=
  DerivesStmt tokens s ∧ s.endsOpen = false

/-- The empty statement. -/
lemma derivesStmt_anySemicolon : DerivesStmt [anyToken .semicolon] .empty :=
  .empty (kind_anyToken _)

section Statements

variable {inner : Rule Stmt}

lemma explains_printRest {word : Token} (hword : word.kind = .printWord) :
    Explains printRest fun us => Completable DerivesClosed (word :: us) := by
  refine .bind reads_require (explains_require fun target htarget => ?_) fun target us hus => ?_
  · exact ⟨[anyToken .semicolon], .print target, .print hword htarget (kind_anyToken _), rfl⟩
  · obtain ⟨rfl, htarget⟩ := hus
    refine .bind_pure (explains_require fun semicolon hsemicolon => ?_)
    exact ⟨[], .print target, .print hword htarget hsemicolon, rfl⟩

lemma explains_simple : Explains simple (Completable DerivesClosed) := by
  rw [simple_eq]
  refine .choose (fun _ _ => explains_pure) ?_
  refine .bind reads_expressionList (explains_expressionList.mono fun us h => ?_)
    fun es us hes => ?_
  · exact h.map [] [anyToken .semicolon] fun us es hes =>
      ⟨.eval es, .eval hes (kind_anyToken _), rfl⟩
  · refine .bind_pure (explains_require fun semicolon hsemicolon => ?_)
    exact ⟨[], .eval es, by simpa using DerivesStmt.eval hes hsemicolon, rfl⟩

lemma explains_whileRest (hinner : Explains inner (Completable DerivesClosed)) {word : Token}
    (hword : word.kind = .whileWord) :
    Explains (whileRest inner) fun us => Completable DerivesClosed (word :: us) := by
  refine .bind reads_condition (explains_condition.mono fun us h => ?_) fun c us hc => ?_
  · exact h.map [word] [anyToken .semicolon] fun us c hc =>
      ⟨.whileLoop c .empty,
        by simpa using DerivesStmt.whileLoop hword hc derivesStmt_anySemicolon, rfl⟩
  · refine .bind_pure (hinner.mono fun vs h => ?_)
    exact h.map (word :: us) [] fun vs body hbody =>
      ⟨.whileLoop c body, by simpa using DerivesStmt.whileLoop hword hc hbody.1, hbody.2⟩

variable (hreads : Reads inner DerivesStmt) (hinner : Explains inner (Completable DerivesClosed))
include hreads hinner

lemma explains_ifRest (helse : LeavesNoElse inner) {word : Token} (hword : word.kind = .ifWord) :
    Explains (ifRest inner) fun us => Completable DerivesClosed (word :: us) := by
  have hcloses : ∀ {us vs : List Token} {c : Expr} {body : Stmt}, DerivesCondition us c →
      DerivesClosed vs body → DerivesClosed (word :: (us ++ (vs ++
        [anyToken .elseWord, anyToken .semicolon]))) (.ifElse c body .empty) :=
    fun hc hbody =>
      ⟨.ifElse hword hc hbody.1 hbody.2 (kind_anyToken _) derivesStmt_anySemicolon, rfl⟩
  rw [ifRest_eq]
  refine .bind reads_condition (explains_condition.mono fun us h => ?_) fun c us hc => ?_
  · refine h.map [word] [anyToken .semicolon, anyToken .elseWord, anyToken .semicolon]
      fun us c hc => ⟨_, hcloses hc ⟨derivesStmt_anySemicolon, rfl⟩⟩
  · intro tokens failure rest hrun
    rcases bind_eq_failed.1 hrun with hfirst | ⟨body, middle, hbody, hmore⟩
    · refine hinner.mono (fun vs h => ?_) hfirst
      exact h.map (word :: us) [anyToken .elseWord, anyToken .semicolon] fun vs body hbody =>
        ⟨_, hcloses hc hbody⟩
    · obtain ⟨vs, rfl, hvs⟩ := hreads hbody
      rcases choose_cases [.elseWord] _ _ middle with ⟨token, others, rfl, hkind, heq⟩ | ⟨-, heq⟩
      · -- the body stopped before an `else`, so it is closed
        have hclosed : body.endsOpen = false :=
          Bool.eq_false_iff.2 fun hopen => helse hbody hopen (nextIs_cons.2 hkind)
        have hkind : token.kind = .elseWord := List.mem_singleton.1 hkind
        rw [heq, bind_pure_eq_failed] at hmore
        obtain ⟨before, ahead, rfl, hblames⟩ := hinner hmore
        refine ⟨vs ++ token :: before, ahead, by simp, ?_⟩
        have hblames := hblames.map (W := fun ws => Completable DerivesClosed (word :: (us ++ ws)))
          (vs ++ [token]) fun ws h => by
            have hmap := h.map (M := DerivesClosed) (word :: (us ++ (vs ++ [token]))) []
              fun ws alternative halternative => ⟨.ifElse c body alternative, by
                simpa using DerivesStmt.ifElse hword hc hvs hclosed hkind halternative.1,
                halternative.2⟩
            simpa using hmap
        simpa using hblames
      · rw [heq] at hmore
        exact absurd hmore (by simp)

lemma explains_forRest {word : Token} (hword : word.kind = .forWord) :
    Explains (forRest inner) fun us => Completable DerivesClosed (word :: us) := by
  -- what is lacking from each place of the header on
  have hfor : ∀ {left semicolon right : Token} {us vs ws xs : List Token} {first body : Stmt}
      {c : Expr} {step : List Expr}, left.kind = .leftParen → DerivesStmt us first →
      Derives .expression vs c → semicolon.kind = .semicolon → DerivesList ws step →
      right.kind = .rightParen → DerivesClosed xs body →
      DerivesClosed (word :: left :: (us ++ (vs ++ semicolon :: (ws ++ right :: xs))))
        (.forLoop first c step body) :=
    fun hleft hfirst hc hsemicolon hstep hright hbody =>
      ⟨.forLoop hword hleft hfirst hc hsemicolon hstep hright hbody.1, hbody.2⟩
  have hempty : DerivesClosed [anyToken .semicolon] .empty := ⟨derivesStmt_anySemicolon, rfl⟩
  have hvariable := derives_anyVariable .expression
  have hlist : DerivesList [anyToken .identifier] _ := .one hvariable
  have hkind := kind_anyToken
  let afterStep := [anyToken .rightParen, anyToken .semicolon]
  let afterCondition := anyToken .semicolon :: anyToken .identifier :: afterStep
  let afterFirst := anyToken .identifier :: afterCondition
  refine .bind reads_require (explains_require fun left hleft => ?_) fun left us hus => ?_
  · exact ⟨anyToken .semicolon :: afterFirst, _,
      hfor hleft hempty.1 hvariable (hkind _) hlist (hkind _) hempty⟩
  obtain ⟨rfl, hleft⟩ := hus
  refine .bind hreads (hinner.mono fun us h => ?_) fun first us hfirst => ?_
  · exact h.map [word, left] afterFirst fun us first hfirst =>
      ⟨_, hfor hleft hfirst.1 hvariable (hkind _) hlist (hkind _) hempty⟩
  refine .bind reads_expression (explains_expression.mono fun vs h => ?_) fun c vs hc => ?_
  · have hmap := h.map (word :: left :: us) afterCondition fun vs c hc =>
      ⟨_, hfor hleft hfirst hc (hkind _) hlist (hkind _) hempty⟩
    simpa using hmap
  refine .bind reads_require (explains_require fun semicolon hsemicolon => ?_)
    fun semicolon ws hws => ?_
  · refine ⟨anyToken .identifier :: afterStep,
      .forLoop first c [.var (anyToken .identifier)] .empty, ?_⟩
    simpa [afterStep] using hfor hleft hfirst hc hsemicolon hlist (hkind _) hempty
  obtain ⟨rfl, hsemicolon⟩ := hws
  refine .bind reads_expressionList (explains_expressionList.mono fun ws h => ?_)
    fun step ws hstep => ?_
  · have hmap := h.map (M := DerivesClosed) (word :: left :: (us ++ (vs ++ [semicolon]))) afterStep
      fun ws step hstep => ⟨.forLoop first c step .empty, by
        simpa [afterStep] using hfor hleft hfirst hc hsemicolon hstep (hkind _) hempty⟩
    simpa using hmap
  refine .bind reads_require (explains_require fun right hright => ?_) fun right xs hxs => ?_
  · refine ⟨[anyToken .semicolon], .forLoop first c step .empty, ?_⟩
    simpa using hfor hleft hfirst hc hsemicolon hstep hright hempty
  obtain ⟨rfl, hright⟩ := hxs
  refine .bind_pure (hinner.mono fun xs h => ?_)
  have hmap := h.map (M := DerivesClosed)
    (word :: left :: (us ++ (vs ++ semicolon :: (ws ++ [right])))) [] fun xs body hbody =>
      ⟨.forLoop first c step body, by
        simpa using hfor hleft hfirst hc hsemicolon hstep hright hbody⟩
  simpa using hmap

lemma explains_blockBody (hcomposed : Composed inner) (hadvances : Advances inner) :
    Explains (blockBody inner) (Completable DerivesBody) := by
  intro tokens
  induction hn : tokens.length using Nat.strongRecOn generalizing tokens with
  | _ n ih =>
    intro failure rest hrun
    rw [blockBody_eq hcomposed hadvances] at hrun
    rcases choose_cases [.rightBrace] _ _ tokens with ⟨right, others, rfl, -, heq⟩ | ⟨hnext, heq⟩
    · rw [heq] at hrun
      exact absurd hrun (by simp)
    · rw [heq, bind_of_done (atEnd_apply tokens)] at hrun
      split at hrun
      · injection hrun with hfailure hrest
        subst hfailure hrest
        exact ⟨[], tokens, rfl, .missing hnext fun right hright =>
          ⟨[], [], .nil hright⟩⟩
      · rcases bind_eq_failed.1 hrun with hfirst | ⟨s, middle, hs, hmore⟩
        · refine hinner.mono (fun us h => ?_) hfirst
          exact h.map [] [anyToken .rightBrace] fun us s hs =>
            ⟨[s], by simpa using DerivesBody.cons hs.1 (.nil (kind_anyToken _))⟩
        · have hlt : middle.length < n := hn ▸ hadvances hs
          obtain ⟨us, rfl, hus⟩ := hreads hs
          rw [bind_pure_eq_failed] at hmore
          obtain ⟨before, ahead, rfl, hblames⟩ := ih _ hlt rfl hmore
          refine ⟨us ++ before, ahead, by simp, hblames.map us fun vs h => ?_⟩
          exact h.map us [] fun vs body hbody => ⟨s :: body, by simpa using hbody.cons hus⟩

lemma explains_blockRest (hcomposed : Composed inner) (hadvances : Advances inner) {left : Token}
    (hleft : left.kind = .leftBrace) :
    Explains (blockRest inner) fun us => Completable DerivesClosed (left :: us) := by
  rw [blockRest_eq]
  refine .bind_pure
    ((explains_blockBody hreads hinner hcomposed hadvances).mono fun us h => ?_)
  exact h.map [left] [] fun us body hbody =>
    ⟨.block body, by simpa using hbody.block hleft, rfl⟩

lemma explains_statementRest (hcomposed : Composed inner) (hadvances : Advances inner)
    (helse : LeavesNoElse inner) {opener : Token} (hopener : opener.kind ∈ openers) :
    Explains (statementRest inner (some opener.kind)) fun us =>
      Completable DerivesClosed (opener :: us) := by
  have hcases := statementRest_of_opener (P := fun kind rule =>
    opener.kind = kind → Explains rule fun us => Completable DerivesClosed (opener :: us))
    explains_printRest (explains_ifRest hreads hinner helse) (explains_whileRest hinner)
    (explains_forRest hreads hinner) (explains_blockRest hreads hinner hcomposed hadvances) hopener
  exact hcases rfl

lemma explains_statementWith (hcomposed : Composed inner) (hadvances : Advances inner)
    (helse : LeavesNoElse inner) : Explains (statementWith inner) (Completable DerivesClosed) := by
  rw [statementWith_eq]
  exact .choose (fun _ => explains_statementRest hreads hinner hcomposed hadvances helse)
    explains_simple

end Statements

lemma completable_statement_of_beginsOperand {token : Token} (h : BeginsOperand token) :
    Completable DerivesClosed [token] :=
  (completable_of_beginsOperand h .expression).map [] [anyToken .semicolon] fun _ e he =>
    ⟨.eval [e], .eval (.one he) (kind_anyToken _), rfl⟩

theorem explains_statement : Explains statement (Completable DerivesClosed) :=
  guarded_reads_statementWith.induction (Q := fun tokens outcome => ∀ ⦃failure rest⦄,
      outcome = .failed failure rest → ∃ before ahead, tokens = before ++ ahead ∧
        Blames (Completable DerivesClosed) before ahead failure rest)
    (explains_expectedOperand fun _ => completable_statement_of_beginsOperand)
    fun _ h hrule => explains_statementWith h.2 hrule h.1.1.1 h.1.1.2 h.1.2

/-! ## Programs -/

theorem explains_program : Explains program (Completable DerivesProgram) := by
  intro tokens
  induction hn : tokens.length using Nat.strongRecOn generalizing tokens with
  | _ n ih =>
    intro failure rest hrun
    rw [program_eq, bind_of_done (atEnd_apply tokens)] at hrun
    split at hrun
    · exact absurd hrun (by simp)
    · rcases bind_eq_failed.1 hrun with hfirst | ⟨s, middle, hs, hmore⟩
      · refine explains_statement.mono (fun us h => ?_) hfirst
        exact h.map [] [] fun us s hs => ⟨[s], by simpa using DerivesProgram.cons hs.1 .nil⟩
      · have hlt : middle.length < n := hn ▸ advances_statement hs
        obtain ⟨us, rfl, hus⟩ := reads_statement hs
        rw [bind_pure_eq_failed] at hmore
        obtain ⟨before, ahead, rfl, hblames⟩ := ih _ hlt rfl hmore
        refine ⟨us ++ before, ahead, by simp, hblames.map us fun vs h => ?_⟩
        exact h.map us [] fun vs p hp => ⟨s :: p, by simpa using hp.cons hus⟩

end Grammar

end ImpSyntax
