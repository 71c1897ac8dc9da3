import ImpSyntax.Proofs.Grammar.Repetition

/-!
# What the rules read is derivable

`Reads rule D` says that whenever the rule succeeds, the tokens it consumed and the construct it
made of them are related by `D`.  The relation passes through sequencing and choice, so each rule of
the grammar is followed once, from its first token to its last, and at the end stands the production
of the grammar that the rule implements.

The production of a conditional with an alternative has a side condition, and what makes it true is
not which tokens the rules consume but which ones they leave: a statement that ends in a conditional
without an alternative is never left in front of an `else` (`LeavesNoElse`).  The first property
relies on the second one at every step of the recursion, since the body of a conditional is itself a
statement.

The main results are `reads_expression`, `reads_statement` and `derivesProgram_of_done`.
-/

namespace ImpSyntax

namespace Rule

variable {α β : Type} {kinds : List Kind}

/-- Whatever the rule reads is related by `D` to the tokens it consumes. -/
def Reads (rule : Rule α) (D : List Token → α → Prop) : Prop :=
  ∀ ⦃tokens a rest⦄, rule tokens = .done a rest → ∃ us, tokens = us ++ rest ∧ D us a

lemma Reads.pure {a : α} {D : List Token → α → Prop} (h : D [] a) : Reads (pure a) D := by
  intro tokens b rest hrun
  rw [pure_apply] at hrun
  injection hrun with hb hrest
  subst hb hrest
  exact ⟨[], rfl, h⟩

lemma Reads.bind {rule : Rule α} {next : α → Rule β} {D : List Token → α → Prop}
    {E : List Token → β → Prop} (hrule : Reads rule D)
    (hnext : ∀ a us, D us a → Reads (next a) fun vs b => E (us ++ vs) b) :
    Reads (rule >>= next) E := by
  intro tokens b rest hrun
  obtain ⟨a, middle, hfirst, hsecond⟩ := bind_eq_done.1 hrun
  obtain ⟨us, rfl, hus⟩ := hrule hfirst
  obtain ⟨vs, rfl, hvs⟩ := hnext a us hus hsecond
  exact ⟨us ++ vs, by rw [List.append_assoc], hvs⟩

lemma Reads.mono {rule : Rule α} {D E : List Token → α → Prop} (h : Reads rule D)
    (hmap : ∀ us a, D us a → E us a) : Reads rule E := by
  intro tokens a rest hrun
  obtain ⟨us, htokens, hus⟩ := h hrun
  exact ⟨us, htokens, hmap us a hus⟩

lemma Reads.bind_pure {rule : Rule α} {f : α → β} {D : List Token → β → Prop}
    (h : Reads rule fun us a => D us (f a)) : Reads (rule >>= fun a => Pure.pure (f a)) D := by
  intro tokens b rest hrun
  obtain ⟨a, hfirst, rfl⟩ := bind_pure_eq_done.1 hrun
  exact h hfirst

lemma Reads.choose {taken : Token → Rule α} {otherwise : Rule α} {D : List Token → α → Prop}
    (htaken : ∀ token, token.kind ∈ kinds → Reads (taken token) fun us a => D (token :: us) a)
    (hother : Reads otherwise D) : Reads (choose kinds taken otherwise) D := by
  intro tokens a rest hrun
  rcases choose_cases kinds taken otherwise tokens with
    ⟨token, others, rfl, hkind, heq⟩ | ⟨-, heq⟩
  · rw [heq] at hrun
    obtain ⟨us, rfl, hus⟩ := htaken token hkind hrun
    exact ⟨token :: us, rfl, hus⟩
  · rw [heq] at hrun
    exact hother hrun

lemma Reads.convert {γ : Type} {value? : String → Option γ} {make : γ → Token → α}
    {otherwise : Rule α} {D : List Token → α → Prop}
    (hvalue : ∀ token value, token.kind ∈ kinds → value? token.text = some value →
      D [token] (make value token))
    (hother : Reads otherwise D) : Reads (convert kinds value? make otherwise) D := by
  refine .choose (fun token hkind => ?_) hother
  cases h : value? token.text with
  | none =>
    intro tokens a rest hrun
    exact absurd hrun (by simp [fail])
  | some value => exact .pure (hvalue token value hkind h)

/-- A token that is required is all that is consumed. -/
lemma reads_require {kind : Kind} :
    Reads (require [kind]) fun us token => us = [token] ∧ token.kind = kind := by
  intro tokens token rest hrun
  obtain ⟨rfl, hkind⟩ := require_eq_done.1 hrun
  exact ⟨[token], rfl, rfl, List.mem_singleton.1 hkind⟩

lemma reads_failHere (fault : Fault) (D : List Token → α → Prop) : Reads (failHere fault) D := by
  intro tokens a rest hrun
  exact absurd hrun (by simp [failHere])

end Rule

namespace Grammar

open Rule

/-! ## Expressions -/

section Expressions

variable {inner : Rule Expr} {kinds : List Kind}

lemma reads_primary : Reads primary (Derives .primary) := by
  rw [primary_eq]
  refine .convert ?_ (.choose (fun token hkind => ?_) (reads_failHere _ _))
  · intro token value hkind hvalue
    exact .number (List.mem_singleton.1 hkind) hvalue
  · exact .pure (.var (List.mem_singleton.1 hkind))

lemma reads_grouping (hinner : Reads inner (Derives .expression)) :
    Reads (grouping inner) (Derives .primary) := by
  rw [grouping_eq]
  refine .choose (fun left hleft => ?_) reads_primary
  refine .bind hinner fun e us he => .bind reads_require fun right vs hright => .pure ?_
  obtain ⟨rfl, hright⟩ := hright
  have hparens : Derives .primary (left :: (us ++ [right])) e :=
    .parens (List.mem_singleton.1 hleft) he hright
  simpa using hparens

lemma reads_stepped (hinner : Reads inner (Derives .expression)) :
    Reads (stepped inner) (Derives .stepped) := by
  refine .bind (reads_grouping hinner) fun operand us he => .choose (fun step hstep => ?_) ?_
  · exact .pure (.step he (Use.step_mem.2 hstep))
  · refine .pure ?_
    rw [List.append_nil]
    exact .unstepped he

/-- The signs are read from the outside in, so the induction is on the tokens that are left. -/
lemma reads_unary (hinner : Reads inner (Derives .expression)) :
    Reads (unary inner) (Derives .signed) := by
  intro tokens
  induction tokens with
  | nil =>
    intro e rest hrun
    rw [unary_eq_choose, choose_of_not_nextIs not_nextIs_nil] at hrun
    obtain ⟨us, htokens, he⟩ := reads_stepped hinner hrun
    exact ⟨us, htokens, .unsigned he⟩
  | cons token tokens ih =>
    intro e rest hrun
    rw [unary_eq_choose] at hrun
    by_cases hsign : token.kind ∈ Kind.signs
    · rw [choose_of_mem hsign] at hrun
      obtain ⟨operand, hoperand, rfl⟩ := bind_pure_eq_done.1 hrun
      obtain ⟨us, rfl, hus⟩ := ih hoperand
      exact ⟨token :: us, rfl, .sign (Use.sign_mem.2 hsign) hus⟩
    · rw [choose_of_not_nextIs (by simpa using hsign)] at hrun
      obtain ⟨us, htokens, he⟩ := reads_stepped hinner hrun
      exact ⟨us, htokens, .unsigned he⟩

/-- What a run of operations has read so far stays its left operand. -/
lemma reads_continueRun {operand : Rule Expr} {D E : List Token → Expr → Prop}
    (hcomposed : Composed operand) (hoperand : Reads operand D)
    (hgrow : ∀ {us vs operator left right}, E us left → operator.kind ∈ kinds → D vs right →
      E (us ++ operator :: vs) (.binary operator left right))
    {us : List Token} {left : Expr} (hleft : E us left) :
    Reads (continueRun kinds operand left) fun vs e => E (us ++ vs) e := by
  intro tokens
  induction hn : tokens.length using Nat.strongRecOn generalizing us left tokens with
  | _ n ih =>
    intro e rest hrun
    rw [continueRun_eq hcomposed] at hrun
    rcases choose_cases kinds _ _ tokens with ⟨operator, others, rfl, hoperator, heq⟩ | ⟨-, heq⟩
    · rw [heq] at hrun
      obtain ⟨right, middle, hright, hmore⟩ := bind_eq_done.1 hrun
      have hlt : middle.length < n := by
        have hle := hcomposed.length_le hright
        simp only [List.length_cons] at hn
        omega
      obtain ⟨vs, rfl, hvs⟩ := hoperand hright
      have hbinary : E (us ++ operator :: vs) (.binary operator left right) :=
        hgrow hleft hoperator hvs
      obtain ⟨ws, rfl, hws⟩ := ih _ hlt hbinary rfl hmore
      exact ⟨operator :: (vs ++ ws), by simp, by simpa using hws⟩
    · rw [heq, pure_apply] at hrun
      injection hrun with he hrest
      subst he hrest
      exact ⟨[], rfl, by simpa using hleft⟩

/-- A run of operations begins with an operand and grows by operators and operands. -/
lemma reads_leftRun {operand : Rule Expr} {D E : List Token → Expr → Prop}
    (hcomposed : Composed operand) (hoperand : Reads operand D)
    (hfirst : ∀ {us e}, D us e → E us e)
    (hgrow : ∀ {us vs operator left right}, E us left → operator.kind ∈ kinds → D vs right →
      E (us ++ operator :: vs) (.binary operator left right)) :
    Reads (leftRun kinds operand) E := by
  rw [leftRun_eq]
  exact .bind hoperand fun _ _ hleft =>
    reads_continueRun hcomposed hoperand hgrow (hfirst hleft)

lemma reads_climb_andTighter (hcomposed : Composed inner)
    (hinner : Reads inner (Derives .expression)) (level : Level) :
    Reads (climb level.andTighter inner) (Derives (.level level)) := by
  refine Level.induction (P := fun category => Reads (ruleWith inner category) (Derives category))
    (reads_unary hinner) ?_ level
  intro level hoperand
  rw [ruleWith, climb_andTighter]
  exact reads_leftRun (composed_ruleWith hcomposed _) hoperand .operand
    fun hleft hoperator => .operation hleft (Use.operation_mem.2 hoperator)

lemma reads_assignment (hcomposed : Composed inner) (hinner : Reads inner (Derives .expression)) :
    Reads (assignment inner) (Derives .expression) := by
  rw [assignment_eq]
  refine .bind (reads_climb_andTighter hcomposed hinner .logicalOr) fun left us hleft =>
    .choose (fun operator hoperator => ?_) ?_
  · refine .bind_pure (hinner.mono fun vs right hright => ?_)
    exact .assignment hleft (Use.assignment_mem.2 hoperator) hright
  · refine .pure ?_
    rw [List.append_nil]
    exact .unassigned hleft

lemma guarded_reads_assignment :
    Guarded (fun inner => Composed inner ∧ Reads inner (Derives .expression)) assignment :=
  guarded_assignment.and (reads_failHere _ _) reads_assignment

theorem reads_expression : Reads expression (Derives .expression) :=
  guarded_assignment.induction (Q := fun tokens outcome => ∀ ⦃e rest⦄, outcome = .done e rest →
      ∃ us, tokens = us ++ rest ∧ Derives .expression us e)
    (reads_failHere _ _) fun _ hcomposed hrule => reads_assignment hcomposed hrule

end Expressions

/-! ## Lists of expressions and conditions -/

theorem reads_expressionList : Reads expressionList DerivesList := by
  intro tokens
  induction hn : tokens.length using Nat.strongRecOn generalizing tokens with
  | _ n ih =>
    intro es rest hrun
    rw [expressionList_eq] at hrun
    obtain ⟨e, middle, he, hmore⟩ := bind_eq_done.1 hrun
    have hlt := advances_expression he
    obtain ⟨us, rfl, hus⟩ := reads_expression he
    rcases choose_cases [.comma] _ _ middle with ⟨comma, others, rfl, hcomma, heq⟩ | ⟨-, heq⟩
    · rw [heq] at hmore
      obtain ⟨es, hes, rfl⟩ := bind_pure_eq_done.1 hmore
      have hlt' : others.length < n := by
        simp only [List.length_append, List.length_cons] at hn
        omega
      obtain ⟨vs, rfl, hvs⟩ := ih _ hlt' rfl hes
      exact ⟨us ++ comma :: vs, by simp, .more hus (List.mem_singleton.1 hcomma) hvs⟩
    · rw [heq, pure_apply] at hmore
      injection hmore with hone hrest
      subst hone hrest
      exact ⟨us, rfl, .one hus⟩

lemma reads_condition : Reads condition DerivesCondition := by
  refine .bind reads_require fun left us hleft => .bind reads_expression fun e vs he =>
    .bind reads_require fun right ws hright => .pure ?_
  obtain ⟨rfl, hleft⟩ := hleft
  obtain ⟨rfl, hright⟩ := hright
  have hparens : DerivesCondition (left :: (vs ++ [right])) e := .parens hleft he hright
  simpa using hparens

/-! ## Statements -/

section Statements

variable {inner : Rule Stmt}

/-- The rule leaves no `else` behind a statement that could take it. -/
def LeavesNoElse (rule : Rule Stmt) : Prop :=
  ∀ ⦃tokens s rest⦄, rule tokens = .done s rest → s.endsOpen = true → ¬ NextIs [.elseWord] rest

lemma leavesNoElse_pure {s : Stmt} (h : s.endsOpen = false) : LeavesNoElse (pure s) := by
  intro tokens t rest hrun hopen
  rw [pure_apply] at hrun
  injection hrun with ht
  rw [← ht, h] at hopen
  exact absurd hopen Bool.false_ne_true

lemma LeavesNoElse.bind {α : Type} {rule : Rule α} {next : α → Rule Stmt}
    (hnext : ∀ a, LeavesNoElse (next a)) : LeavesNoElse (rule >>= next) := by
  intro tokens s rest hrun hopen
  obtain ⟨a, middle, -, hsecond⟩ := bind_eq_done.1 hrun
  exact hnext a hsecond hopen

/-- A statement that ends with the one that was read. -/
lemma LeavesNoElse.wrap (hinner : LeavesNoElse inner) {make : Stmt → Stmt}
    (hmake : ∀ s, (make s).endsOpen = s.endsOpen) :
    LeavesNoElse (inner >>= fun s => pure (make s)) := by
  intro tokens s rest hrun hopen
  obtain ⟨body, hbody, rfl⟩ := bind_pure_eq_done.1 hrun
  rw [hmake] at hopen
  exact hinner hbody hopen

lemma leavesNoElse_ifRest (hinner : LeavesNoElse inner) : LeavesNoElse (ifRest inner) := by
  rw [ifRest_eq]
  refine .bind fun c => .bind fun body => ?_
  intro tokens s rest hrun hopen
  rcases choose_cases [.elseWord] _ _ tokens with ⟨word, others, rfl, -, heq⟩ | ⟨hnone, heq⟩
  · rw [heq] at hrun
    have hwrap : LeavesNoElse (inner >>= fun s => pure (.ifElse c body s)) :=
      hinner.wrap fun _ => rfl
    exact hwrap hrun hopen
  · rw [heq, pure_apply] at hrun
    injection hrun with hs hrest
    rwa [← hrest]

lemma leavesNoElse_simple : LeavesNoElse simple := by
  rw [simple_eq]
  exact .bind fun
    | some _ => leavesNoElse_pure rfl
    | none => .bind fun _ => .bind fun _ => leavesNoElse_pure rfl

lemma leavesNoElse_statementWith (hinner : LeavesNoElse inner) :
    LeavesNoElse (statementWith inner) := by
  refine .bind fun opener => statementRest_cases (P := LeavesNoElse) ?_ ?_ ?_ ?_ ?_ ?_ _
  · exact .bind fun _ => .bind fun _ => leavesNoElse_pure rfl
  · exact leavesNoElse_ifRest hinner
  · exact .bind fun _ => hinner.wrap fun _ => rfl
  · exact .bind fun _ => .bind fun _ => .bind fun _ => .bind fun _ => .bind fun _ => .bind fun _ =>
      hinner.wrap fun _ => rfl
  · exact .bind fun _ => leavesNoElse_pure rfl
  · exact leavesNoElse_simple

lemma reads_ifRest (hinner : Reads inner DerivesStmt) (helse : LeavesNoElse inner) {word : Token}
    (hword : word.kind = .ifWord) :
    Reads (ifRest inner) fun us s => DerivesStmt (word :: us) s := by
  rw [ifRest_eq]
  refine .bind reads_condition fun c us hc => ?_
  intro tokens s rest hrun
  obtain ⟨body, middle, hbody, hmore⟩ := bind_eq_done.1 hrun
  obtain ⟨vs, rfl, hvs⟩ := hinner hbody
  rcases choose_cases [.elseWord] _ _ middle with ⟨token, others, rfl, hkind, heq⟩ | ⟨-, heq⟩
  · -- the body stopped before an `else`, so it is closed
    have hclosed : body.endsOpen = false :=
      Bool.eq_false_iff.2 fun hopen => helse hbody hopen (nextIs_cons.2 hkind)
    rw [heq] at hmore
    obtain ⟨alternative, halternative, rfl⟩ := bind_pure_eq_done.1 hmore
    obtain ⟨ws, rfl, hws⟩ := hinner halternative
    exact ⟨vs ++ token :: ws, by simp,
      .ifElse hword hc hvs hclosed (List.mem_singleton.1 hkind) hws⟩
  · rw [heq, pure_apply] at hmore
    injection hmore with hs hrest
    subst hs hrest
    exact ⟨vs, rfl, .ifThen hword hc hvs⟩

lemma reads_forRest (hinner : Reads inner DerivesStmt) {word : Token}
    (hword : word.kind = .forWord) :
    Reads (forRest inner) fun us s => DerivesStmt (word :: us) s := by
  refine .bind reads_require fun left us hleft => .bind hinner fun first vs hfirst =>
    .bind reads_expression fun c ws hc => .bind reads_require fun semicolon xs hsemicolon =>
    .bind reads_expressionList fun step ys hstep => .bind reads_require fun right zs hright =>
    .bind hinner fun body os hbody => .pure ?_
  obtain ⟨rfl, hleft⟩ := hleft
  obtain ⟨rfl, hsemicolon⟩ := hsemicolon
  obtain ⟨rfl, hright⟩ := hright
  simpa using DerivesStmt.forLoop hword hleft hfirst hc hsemicolon hstep hright hbody

lemma reads_blockBody (hcomposed : Composed inner) (hadvances : Advances inner)
    (hinner : Reads inner DerivesStmt) :
    Reads (blockBody inner) DerivesBody := by
  intro tokens
  induction hn : tokens.length using Nat.strongRecOn generalizing tokens with
  | _ n ih =>
    intro body rest hrun
    rw [blockBody_eq hcomposed hadvances] at hrun
    rcases choose_cases [.rightBrace] _ _ tokens with ⟨right, others, rfl, hright, heq⟩ | ⟨-, heq⟩
    · rw [heq, pure_apply] at hrun
      injection hrun with hbody hrest
      subst hbody hrest
      exact ⟨[right], rfl, .nil (List.mem_singleton.1 hright)⟩
    · rw [heq] at hrun
      rw [bind_of_done (atEnd_apply tokens)] at hrun
      cases hempty : tokens.isEmpty with
      | true => exact absurd hrun (by simp [hempty, unexpected])
      | false =>
        rw [hempty, if_neg Bool.false_ne_true] at hrun
        obtain ⟨s, middle, hs, hmore⟩ := bind_eq_done.1 hrun
        obtain ⟨more, hbody, rfl⟩ := bind_pure_eq_done.1 hmore
        have hlt : middle.length < n := hn ▸ hadvances hs
        obtain ⟨us, rfl, hus⟩ := hinner hs
        obtain ⟨vs, rfl, hvs⟩ := ih _ hlt rfl hbody
        exact ⟨us ++ vs, by rw [List.append_assoc], .cons hus hvs⟩

lemma reads_simple : Reads simple DerivesStmt := by
  rw [simple_eq]
  refine .choose (fun semicolon hsemicolon => .pure (.empty (List.mem_singleton.1 hsemicolon))) ?_
  refine .bind reads_expressionList fun es us hes =>
    .bind_pure (reads_require.mono fun vs semicolon hvs => ?_)
  obtain ⟨rfl, hsemicolon⟩ := hvs
  exact .eval hes hsemicolon

lemma reads_printRest {word : Token} (hword : word.kind = .printWord) :
    Reads printRest fun us s => DerivesStmt (word :: us) s := by
  refine .bind reads_require fun target us htarget => .bind reads_require fun semicolon vs hvs =>
    .pure ?_
  obtain ⟨rfl, htarget⟩ := htarget
  obtain ⟨rfl, hsemicolon⟩ := hvs
  exact .print hword htarget hsemicolon

lemma reads_whileRest (hinner : Reads inner DerivesStmt) {word : Token}
    (hword : word.kind = .whileWord) :
    Reads (whileRest inner) fun us s => DerivesStmt (word :: us) s := by
  refine .bind reads_condition fun c us hc => .bind_pure (hinner.mono fun vs body hbody => ?_)
  exact .whileLoop hword hc hbody

lemma reads_blockRest (hcomposed : Composed inner) (hadvances : Advances inner)
    (hinner : Reads inner DerivesStmt) {left : Token} (hleft : left.kind = .leftBrace) :
    Reads (blockRest inner) fun us s => DerivesStmt (left :: us) s := by
  refine .bind_pure ((reads_blockBody hcomposed hadvances hinner).mono fun us body hbody => ?_)
  exact hbody.block hleft

/-- What follows an opening token is read so that it makes a statement with it. -/
lemma reads_statementRest (hcomposed : Composed inner) (hadvances : Advances inner)
    (hinner : Reads inner DerivesStmt) (helse : LeavesNoElse inner) {opener : Token}
    (hopener : opener.kind ∈ openers) :
    Reads (statementRest inner (some opener.kind)) fun us s => DerivesStmt (opener :: us) s := by
  have hcases := statementRest_of_opener (P := fun kind rule =>
    opener.kind = kind → Reads rule fun us s => DerivesStmt (opener :: us) s)
    reads_printRest (reads_ifRest hinner helse) (reads_whileRest hinner) (reads_forRest hinner)
    (reads_blockRest hcomposed hadvances hinner) hopener
  exact hcases rfl

lemma reads_statementWith (hcomposed : Composed inner) (hadvances : Advances inner)
    (hinner : Reads inner DerivesStmt) (helse : LeavesNoElse inner) :
    Reads (statementWith inner) DerivesStmt := by
  rw [statementWith_eq]
  exact .choose (fun _ => reads_statementRest hcomposed hadvances hinner helse) reads_simple

lemma leavesNoElse_failHere (fault : Fault) : LeavesNoElse (failHere fault) := by
  intro tokens s rest hrun
  exact absurd hrun (by simp [failHere])

lemma guarded_leavesNoElse_statementWith :
    Guarded (fun inner => (Composed inner ∧ Advances inner) ∧ LeavesNoElse inner) statementWith :=
  guarded_statementWith.and (leavesNoElse_failHere _) fun _ => leavesNoElse_statementWith

lemma guarded_reads_statementWith :
    Guarded (fun inner => ((Composed inner ∧ Advances inner) ∧ LeavesNoElse inner) ∧
      Reads inner DerivesStmt) statementWith :=
  guarded_leavesNoElse_statementWith.and (reads_failHere _ _)
    fun h hreads => reads_statementWith h.1.1 h.1.2 hreads h.2

theorem leavesNoElse_statement : LeavesNoElse statement :=
  guarded_statementWith.induction (Q := fun _ outcome => ∀ ⦃s rest⦄, outcome = .done s rest →
      s.endsOpen = true → ¬ NextIs [.elseWord] rest)
    (leavesNoElse_failHere _) fun _ _ hrule => leavesNoElse_statementWith hrule

theorem reads_statement : Reads statement DerivesStmt :=
  guarded_leavesNoElse_statementWith.induction (Q := fun tokens outcome => ∀ ⦃s rest⦄,
      outcome = .done s rest → ∃ us, tokens = us ++ rest ∧ DerivesStmt us s)
    (reads_failHere _ _) fun _ h hrule => reads_statementWith h.1.1 h.1.2 hrule h.2

end Statements

/-! ## Programs -/

/-- A program that is read has consumed all tokens. -/
theorem derivesProgram_of_done {tokens rest : List Token} {p : Program}
    (hrun : program tokens = .done p rest) : DerivesProgram tokens p ∧ rest = [] := by
  induction hn : tokens.length using Nat.strongRecOn generalizing tokens p with
  | _ n ih =>
    rw [program_eq] at hrun
    rw [bind_of_done (atEnd_apply tokens)] at hrun
    cases hempty : tokens.isEmpty with
    | true =>
      rw [hempty, if_pos rfl, pure_apply] at hrun
      injection hrun with hp hrest
      subst hp hrest
      have hnil : tokens = [] := List.isEmpty_iff.1 hempty
      exact ⟨hnil ▸ .nil, hnil⟩
    | false =>
      rw [hempty, if_neg Bool.false_ne_true] at hrun
      obtain ⟨s, middle, hs, hmore⟩ := bind_eq_done.1 hrun
      obtain ⟨more, hprogram, rfl⟩ := bind_pure_eq_done.1 hmore
      obtain ⟨hmoreDerives, rfl⟩ := ih _ (hn ▸ advances_statement hs) hprogram rfl
      obtain ⟨us, rfl, hus⟩ := reads_statement hs
      exact ⟨.cons hus hmoreDerives, rfl⟩

end Grammar

end ImpSyntax
