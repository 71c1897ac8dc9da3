import ImpSyntax.Proofs.Grammar.Nesting

/-!
# Operators outside parentheses

An operator between operands that is outside all parentheses splits the tokens of an expression in
two (`OuterOperator`).  A `-` may also be a sign.  It stands between operands if and only if an
operand ends in front of it, which the token in front of it shows (`EndsOperand`).

If two phrases are joined by an operator, the outer operators are those of the phrases and that
operator itself (`Derives.cases_join`), because the first phrase leaves no parenthesis open and the
operator ends no operand.  So each category has only outer operators that would extend it
(`Derives.mem_extenders`).  An operand of a level is not extended by the operators of the level,
and thus an operator is looser than all outer ones in the operands beside it.  The converse holds as
well: an expression with outer operators of a level and of tighter ones only is of that level
(`Derives.level_of_outer`).
-/

namespace ImpSyntax

namespace Grammar

/-- The operators that stand between two operands. -/
def binaryOperators : List Kind :=
  Kind.assignments ++ Level.loosestFirst.flatMap Level.operators

/-- The kinds of token that an operand may end in. -/
def operandEnds : List Kind :=
  [.number, .identifier, .rightParen, .increment, .decrement]

/-- The last token is one that an operand may end in. -/
def EndsOperand (tokens : List Token) : Prop :=
  ∃ last ∈ tokens.getLast?, last.kind ∈ operandEnds

/-- The tokens are `before`, an operator between operands and `after`, and the operator is outside
of all parentheses. -/
structure OuterOperator (tokens before : List Token) (operator : Token) (after : List Token) :
    Prop where
  split : tokens = before ++ operator :: after
  outside : depth before = 0
  kind : operator.kind ∈ binaryOperators
  subtracts : operator.kind = .minus → EndsOperand before

/-- No operator outside parentheses stands between operands. -/
def Unjoined (tokens : List Token) : Prop :=
  ∀ before operator after, ¬ OuterOperator tokens before operator after

/-! ## Kinds of operators -/

section kinds

variable {kind : Kind}

lemma mem_binaryOperators_of_assignment (h : .assignment ∈ kind.uses) : kind ∈ binaryOperators :=
  List.mem_append_left _ (Use.assignment_mem.1 h)

lemma mem_binaryOperators_of_operation {level : Level} (h : .operation level ∈ kind.uses) :
    kind ∈ binaryOperators := by
  have hlevel : level ∈ Level.loosestFirst := by cases level <;> decide
  exact List.mem_append_right _ (List.mem_flatMap.2 ⟨level, hlevel, Use.operation_mem.1 h⟩)

lemma nesting_of_mem_binaryOperators (h : kind ∈ binaryOperators) : kind.nesting = 0 := by
  revert kind
  decide

lemma not_mem_operandEnds (h : kind ∈ binaryOperators ++ Kind.signs) : kind ∉ operandEnds := by
  revert kind
  decide

lemma not_mem_steps (h : kind ∈ binaryOperators) : kind ∉ Kind.steps := by
  revert kind
  decide

lemma eq_minus_of_sign (h : kind ∈ binaryOperators) (hsign : kind ∈ Kind.signs) :
    kind = .minus := by
  revert kind
  decide

end kinds

/-! ## Places of outer operators -/

section operators

variable {tokens us vs before after : List Token} {o operator token : Token}

lemma not_endsOperand_nil : ¬ EndsOperand [] := by
  simp [EndsOperand]

lemma endsOperand_concat (h : token.kind ∈ operandEnds) (us : List Token) :
    EndsOperand (us ++ [token]) :=
  ⟨token, List.getLast?_concat, h⟩

lemma EndsOperand.append (h : EndsOperand vs) (us : List Token) : EndsOperand (us ++ vs) := by
  obtain ⟨last, hlast, hends⟩ := h
  exact ⟨last, List.mem_getLast?_append_of_mem_getLast? hlast, hends⟩

/-- If a token ends no operand, what ends one behind it does so without it. -/
lemma EndsOperand.of_append_cons (h : EndsOperand (us ++ o :: vs)) (ho : o.kind ∉ operandEnds) :
    EndsOperand vs := by
  obtain ⟨last, hlast, hends⟩ := h
  rw [List.append_cons] at hlast
  obtain rfl | hvs := eq_or_ne vs []
  · rw [List.append_nil, List.getLast?_concat, Option.mem_some_iff] at hlast
    exact absurd (hlast ▸ hends) ho
  · rw [List.getLast?_append_of_ne_nil _ hvs] at hlast
    exact ⟨last, hlast, hends⟩

/-- Two elements of a list are in one of two orders, or are the same element. -/
lemma cases_append_cons {α : Type} {us vs before after : List α} {o a : α}
    (h : us ++ o :: vs = before ++ a :: after) :
    (∃ ws, us = before ++ a :: ws) ∨ (before = us ∧ a = o) ∨
      ∃ ws, before = us ++ o :: ws ∧ vs = ws ++ a :: after := by
  obtain ⟨xs, rfl, hxs⟩ | ⟨xs, rfl, hxs⟩ := List.append_eq_append_iff.1 h
  · obtain ⟨rfl, hcons⟩ | ⟨ws, rfl, hws⟩ := List.cons_eq_append_iff.1 hxs
    · exact .inr (.inl ⟨List.append_nil _, (List.cons_eq_cons.1 hcons).1⟩)
    · exact .inr (.inr ⟨ws, rfl, hws⟩)
  · obtain ⟨rfl, hcons⟩ | ⟨ws, rfl, -⟩ := List.cons_eq_append_iff.1 hxs
    · exact .inr (.inl ⟨(List.append_nil _).symm, (List.cons_eq_cons.1 hcons).1.symm⟩)
    · exact .inl ⟨ws, rfl⟩

/-- Around a token at depth zero that ends no operand, an outer operator is one of what is in front
of the token, is the token, or is one of what is behind it. -/
lemma OuterOperator.cases_append (h : OuterOperator (us ++ o :: vs) before operator after)
    (hus : depth us = 0) (ho : o.kind.nesting = 0) (hends : vs = [] ∨ o.kind ∉ operandEnds) :
    (∃ ws, OuterOperator us before operator ws) ∨ (before = us ∧ operator = o) ∨
      ∃ ws, before = us ++ o :: ws ∧ OuterOperator vs ws operator after := by
  obtain ⟨ws, hleft⟩ | hmiddle | ⟨ws, rfl, hright⟩ := cases_append_cons h.split
  · exact .inl ⟨ws, hleft, h.outside, h.kind, h.subtracts⟩
  · exact .inr (.inl hmiddle)
  · have hdepth : depth ws = 0 := by
      have houtside := h.outside
      rwa [depth_append, depth_cons, hus, ho, zero_add, zero_add] at houtside
    obtain rfl | hends := hends
    · exact absurd hright.symm (by simp)
    · exact .inr (.inr ⟨ws, rfl, hright, hdepth, h.kind,
        fun hminus => (h.subtracts hminus).of_append_cons hends⟩)

lemma OuterOperator.append_right (h : OuterOperator us before operator after) (vs : List Token) :
    OuterOperator (us ++ vs) before operator (after ++ vs) where
  split := by rw [h.split, List.append_assoc, List.cons_append]
  outside := h.outside
  kind := h.kind
  subtracts := h.subtracts

lemma OuterOperator.append_left (h : OuterOperator vs before operator after)
    (hus : depth us = 0) : OuterOperator (us ++ vs) (us ++ before) operator after where
  split := by rw [h.split, List.append_assoc]
  outside := by rw [depth_append, hus, h.outside, zero_add]
  kind := h.kind
  subtracts hminus := (h.subtracts hminus).append us

/-- Tokens behind an outer operator begin outside parentheses again. -/
lemma OuterOperator.depth_concat (h : OuterOperator tokens before operator after) :
    depth (before ++ [operator]) = 0 := by
  rw [depth_append, h.outside, depth_cons, nesting_of_mem_binaryOperators h.kind, depth_nil]
  rfl

lemma unjoined_nil : Unjoined [] := by
  intro before operator after houter
  exact absurd houter.split.symm (by simp)

lemma unjoined_singleton (h : token.kind ∉ binaryOperators) : Unjoined [token] := by
  intro before operator after houter
  obtain ⟨-, hcons⟩ | ⟨-, hnil⟩ := List.singleton_eq_append_iff.1 houter.split
  · obtain ⟨rfl, -⟩ := List.cons_eq_cons.1 hcons
    exact h houter.kind
  · exact absurd hnil (List.cons_ne_nil _ _)

/-- All that is between a pair of parentheses is inside of it. -/
lemma Balanced.unjoined_parens {left : Token} (h : Balanced tokens) (hleft : left.kind = .leftParen)
    (right : Token) : Unjoined (left :: (tokens ++ [right])) := by
  intro before operator after houter
  obtain ⟨-, hcons⟩ | ⟨us, rfl, hus⟩ := List.cons_eq_append_iff.1 houter.split
  · obtain ⟨rfl, -⟩ := List.cons_eq_cons.1 hcons
    exact absurd houter.kind (by rw [hleft]; decide)
  have hprefix : us <+: tokens ++ [right] := ⟨operator :: after, hus.symm⟩
  obtain rfl | hprefix := List.prefix_concat_iff.1 hprefix
  · exact absurd hus (by simp)
  · exact absurd houter.outside (h.depth_pos hleft hprefix).ne'

end operators

/-! ## Outer operators of derived phrases -/

section Derives

variable {category : Category} {tokens us before after : List Token} {a e : Expr}
  {o operator : Token}

lemma Derives.endsOperand (h : Derives category tokens e) : EndsOperand tokens := by
  induction h with
  | number hkind _ => exact endsOperand_concat (by rw [hkind]; decide) []
  | var hkind => exact endsOperand_concat (by rw [hkind]; decide) []
  | @parens left _ tokens _ _ _ hright _ =>
    exact endsOperand_concat (by rw [hright]; decide) (left :: tokens)
  | unstepped _ ih => exact ih
  | step _ hoperator _ =>
    have hsteps : Kind.steps ⊆ operandEnds := by decide
    exact endsOperand_concat (hsteps (Use.step_mem.1 hoperator)) _
  | unsigned _ ih => exact ih
  | sign _ _ ih => exact ih.append [_]
  | operand _ ih => exact ih
  | @operation _ operator us _ _ _ _ _ _ _ ihb =>
    rw [List.append_cons]
    exact ihb.append (us ++ [operator])
  | unassigned _ ih => exact ih
  | @assignment operator us _ _ _ _ _ _ _ ihb =>
    rw [List.append_cons]
    exact ihb.append (us ++ [operator])

/-- An operator that joins phrases is an outer one. -/
lemma Derives.outerOperator_join (ha : Derives category us a) (ho : o.kind ∈ binaryOperators)
    (vs : List Token) : OuterOperator (us ++ o :: vs) us o vs :=
  ⟨rfl, ha.balanced.closed, ho, fun _ => ha.endsOperand⟩

/-- The outer operators of joined phrases are those of the phrases and the one that joins them. -/
lemma Derives.cases_join {vs : List Token} (ha : Derives category us a)
    (ho : o.kind ∈ binaryOperators)
    (houter : OuterOperator (us ++ o :: vs) before operator after) :
    (∃ ws, OuterOperator us before operator ws) ∨ (before = us ∧ operator = o) ∨
      ∃ ws, before = us ++ o :: ws ∧ OuterOperator vs ws operator after :=
  houter.cases_append ha.balanced.closed (nesting_of_mem_binaryOperators ho)
    (.inr (not_mem_operandEnds (List.mem_append_left _ ho)))

/-- The outer operators of a phrase would all extend it. -/
theorem Derives.mem_extenders (h : Derives category tokens e)
    (houter : OuterOperator tokens before operator after) :
    operator.kind ∈ category.extenders := by
  induction h generalizing before after with
  | number hkind _ => exact absurd houter (unjoined_singleton (by rw [hkind]; decide) _ _ _)
  | var hkind => exact absurd houter (unjoined_singleton (by rw [hkind]; decide) _ _ _)
  | parens hleft he _ _ => exact absurd houter (he.balanced.unjoined_parens hleft _ _ _ _)
  | unstepped _ ih => exact absurd (ih houter) List.not_mem_nil
  | @step step _ _ he hstep ih =>
    have hextends : step.kind ∈ Category.stepped.extenders := Use.step_mem.1 hstep
    have hnesting : step.kind.nesting = 0 := Category.nesting_of_mem_extenders hextends
    obtain ⟨_, hinner⟩ | ⟨-, rfl⟩ | ⟨_, -, hnil⟩ :=
      houter.cases_append he.balanced.closed hnesting (.inl rfl)
    · exact absurd (ih hinner) List.not_mem_nil
    · exact hextends
    · exact absurd hnil (unjoined_nil _ _ _)
  | unsigned _ ih => exact ih houter
  | @sign sign rest _ hsign _ ih =>
    rw [Use.sign_mem] at hsign
    have houter : OuterOperator ([] ++ sign :: rest) before operator after := houter
    have hends := not_mem_operandEnds (List.mem_append_right _ hsign)
    obtain ⟨_, hnil⟩ | ⟨rfl, rfl⟩ | ⟨_, -, hinner⟩ :=
      houter.cases_append depth_nil (Kind.nesting_of_mem_signs hsign) (.inr hends)
    · exact absurd hnil (unjoined_nil _ _ _)
    · -- a sign has no token in front of it, so it does not subtract
      have hminus := eq_minus_of_sign houter.kind hsign
      exact absurd (houter.subtracts hminus) not_endsOperand_nil
    · exact ih hinner
  | @operand level _ _ _ ih => exact level.extenders_operand_subset (ih houter)
  | @operation level _ _ _ _ _ ha hoperator _ iha ihb =>
    obtain ⟨_, hleft⟩ | ⟨-, rfl⟩ | ⟨_, -, hright⟩ :=
      ha.cases_join (mem_binaryOperators_of_operation hoperator) houter
    · exact iha hleft
    · exact level.operators_subset_extenders (Use.operation_mem.1 hoperator)
    · exact level.extenders_operand_subset (ihb hright)
  | unassigned _ ih => exact Category.extenders_subset_expression _ (ih houter)
  | assignment ha hoperator _ iha ihb =>
    obtain ⟨_, hleft⟩ | ⟨-, rfl⟩ | ⟨_, -, hright⟩ :=
      ha.cases_join (mem_binaryOperators_of_assignment hoperator) houter
    · exact Category.extenders_subset_expression _ (iha hleft)
    · exact Kind.assignments_subset_extenders (Use.assignment_mem.1 hoperator)
    · exact ihb hright

/-- Operands with their signs and steps are not joined by operators. -/
lemma Derives.unjoined (h : Derives .signed tokens e) : Unjoined tokens :=
  fun _ _ _ houter => not_mem_steps houter.kind (h.mem_extenders houter)

/-! ## Categories by outer operators -/

lemma Derives.operand_of_outer {level : Level} (h : Derives (.level level) tokens e)
    (hnone : ∀ {us o vs}, OuterOperator tokens us o vs → o.kind ∉ level.operators) :
    Derives level.operand tokens e := by
  cases h with
  | operand he => exact he
  | operation ha ho _ =>
    have hbinary := mem_binaryOperators_of_operation ho
    exact absurd (Use.operation_mem.1 ho) (hnone (ha.outerOperator_join hbinary _))

lemma Derives.level_of_unassigned (h : Derives .expression tokens e)
    (hnone : ∀ {us o vs}, OuterOperator tokens us o vs → o.kind ∉ Kind.assignments) :
    Derives (.level .logicalOr) tokens e := by
  cases h with
  | unassigned he => exact he
  | assignment ha ho _ =>
    have hbinary := mem_binaryOperators_of_assignment ho
    exact absurd (Use.assignment_mem.1 ho) (hnone (ha.outerOperator_join hbinary _))

/-- An expression is of a level if all its outer operators are. -/
theorem Derives.level_of_outer {level : Level} (h : Derives .expression tokens e)
    (hall : ∀ {us o vs}, OuterOperator tokens us o vs →
      o.kind ∈ (Category.level level).extenders) :
    Derives (.level level) tokens e := by
  have hloosest : (Category.level level).extenders ⊆ (Category.level .logicalOr).extenders := by
    cases level <;> decide
  have hor : Derives (.level .logicalOr) tokens e := h.level_of_unassigned fun houter hassigns =>
    Kind.not_mem_extenders_of_assignment hassigns (hloosest (hall houter))
  -- go down from the loosest level, as long as its operators extend more than the level does
  refine Level.induction (P := fun category =>
    (Category.level level).extenders ⊆ category.extenders → Derives category tokens e →
      Derives (.level level) tokens e) (fun _ he => he.of_signed level) ?_ .logicalOr hloosest hor
  intro looser ih hsubset he
  by_cases heq : level = looser
  · rwa [heq]
  · have hoperand := Level.extenders_subset_operand hsubset heq
    have hnone : ∀ {us o vs}, OuterOperator tokens us o vs → o.kind ∉ looser.operators :=
      fun houter ho => looser.not_mem_extenders_operand ho (hoperand (hall houter))
    exact ih hoperand (he.operand_of_outer hnone)

lemma Derives.signed_of_unjoined (h : Derives .expression tokens e) (hunjoined : Unjoined tokens) :
    Derives .signed tokens e := by
  have hproduct : Derives (.level .product) tokens e :=
    h.level_of_outer fun houter => absurd houter (hunjoined _ _ _)
  exact hproduct.operand_of_outer fun houter => absurd houter (hunjoined _ _ _)

end Derives

end Grammar

end ImpSyntax
