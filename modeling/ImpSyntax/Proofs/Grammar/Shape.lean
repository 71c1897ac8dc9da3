import ImpSyntax.Proofs.Grammar.OuterOperator
import ImpSyntax.Proofs.Grammar.Soundness

/-!
# Precedence by the outermost operator

The grammar says what binds tighter by nine levels of operands, one inside the other, and reads them
from the left.  One can also look at all tokens of an expression at once.  Among the operators
outside parentheses there is one that is applied last, and the operands of the tree are what is read
on its two sides: the leftmost one that assigns (`FirstAssignment`), and if none assigns, the
rightmost one of the loosest level that occurs (`LastOfLoosest`).  Without such an operator, a sign
in front is applied last, and without signs a step at the end.

`expression_shape` says that this is another definition of what is read as an expression.
-/

namespace ImpSyntax

namespace Grammar

/-! ## The operator that is applied last -/

/-- The outer operator is the leftmost of those that assign. -/
structure FirstAssignment (tokens before : List Token) (operator : Token) (after : List Token) :
    Prop where
  outer : OuterOperator tokens before operator after
  assigns : operator.kind ∈ Kind.assignments
  first : ∀ {us o vs}, OuterOperator tokens us o vs → o.kind ∈ Kind.assignments →
    before.length ≤ us.length

/-- The outer operator is of the level, all others are of the level or of tighter ones, and it is
the rightmost of those of the level. -/
structure LastOfLoosest (tokens : List Token) (level : Level) (before : List Token)
    (operator : Token) (after : List Token) : Prop where
  outer : OuterOperator tokens before operator after
  operates : operator.kind ∈ level.operators
  loosest : ∀ {us o vs}, OuterOperator tokens us o vs →
    ∃ other ∈ level.andTighter, o.kind ∈ other.operators
  last : ∀ {us o vs}, OuterOperator tokens us o vs → o.kind ∈ level.operators →
    us.length ≤ before.length

/-- The tree of an expression by what is applied last in its tokens.  No two cases apply to the same
tokens: of the first two, the second has no operator that assigns, and the others have no outer
operators at all.  A step is not applied to a step. -/
inductive Shape (tokens : List Token) : Expr → Prop where
  | assignment {before after : List Token} {operator : Token} {a b : Expr}
      (hfirst : FirstAssignment tokens before operator after)
      (ha : expression before = .done a []) (hb : expression after = .done b []) :
      Shape tokens (.binary operator a b)
  | operation {level : Level} {before after : List Token} {operator : Token} {a b : Expr}
      (hlast : LastOfLoosest tokens level before operator after)
      (ha : expression before = .done a []) (hb : expression after = .done b []) :
      Shape tokens (.binary operator a b)
  | sign {rest : List Token} {operator : Token} {a : Expr} (hunjoined : Unjoined tokens)
      (htokens : tokens = operator :: rest) (hoperator : operator.kind ∈ Kind.signs)
      (ha : expression rest = .done a []) : Shape tokens (.unary operator a)
  | step {before : List Token} {operator : Token} {a : Expr} (hunjoined : Unjoined tokens)
      (hunsigned : ¬ Rule.NextIs Kind.signs tokens) (htokens : tokens = before ++ [operator])
      (hoperator : operator.kind ∈ Kind.steps)
      (hsingle : ∀ last ∈ before.getLast?, last.kind ∉ Kind.steps)
      (ha : expression before = .done a []) : Shape tokens (.unary operator a)
  | number {token : Token} {value : Binary64} (htokens : tokens = [token])
      (hkind : token.kind = .number) (hvalue : numberValue? token.text = some value) :
      Shape tokens (.number value token)
  | var {token : Token} (htokens : tokens = [token]) (hkind : token.kind = .identifier) :
      Shape tokens (.var token)
  | parens {inner : List Token} {left right : Token} {e : Expr} (hunjoined : Unjoined tokens)
      (htokens : tokens = left :: (inner ++ [right])) (hleft : left.kind = .leftParen)
      (hright : right.kind = .rightParen) (he : expression inner = .done e []) : Shape tokens e

variable {category : Category} {level : Level} {tokens us vs before after : List Token}
  {a b e : Expr} {o operator : Token}

lemma expression_eq_done : expression tokens = .done e [] ↔ Derives .expression tokens e := by
  constructor
  · intro h
    obtain ⟨us, rfl, hus⟩ := reads_expression h
    rwa [List.append_nil]
  · intro h
    have hread := expression_of_derives h Rule.not_nextIs_nil
    rwa [List.append_nil] at hread

/-! ## Every expression has its shape -/

lemma Derives.expression_eq (h : Derives category tokens e) :
    expression tokens = .done e [] := by
  rw [expression_eq_done]
  cases category with
  | expression => exact h
  | level level => exact h.expression_of_level
  | signed => exact (h.of_signed .product).expression_of_level
  | stepped => exact ((Derives.unsigned h).of_signed .product).expression_of_level
  | primary => exact h.of_primary _

lemma shape_of_primary (h : Derives .primary tokens e) : Shape tokens e := by
  have hunjoined : Unjoined tokens := Derives.unjoined (.unsigned (.unstepped h))
  cases h with
  | number hkind hvalue => exact .number rfl hkind hvalue
  | var hkind => exact .var rfl hkind
  | parens hleft he hright => exact .parens hunjoined rfl hleft hright he.expression_eq

lemma Derives.last_not_step (h : Derives .primary tokens e) :
    ∀ last ∈ tokens.getLast?, last.kind ∉ Kind.steps := by
  cases h with
  | number hkind _ => simp [hkind, Kind.steps]
  | var hkind => simp [hkind, Kind.steps]
  | @parens left right tokens _ _ _ hright =>
    rw [← List.cons_append, List.getLast?_concat]
    simp [hright, Kind.steps]

lemma shape_of_stepped (h : Derives .stepped tokens e) : Shape tokens e := by
  have hunjoined : Unjoined tokens := (Derives.unsigned h).unjoined
  have hstarts := h.nextIs_starts []
  rw [List.append_nil] at hstarts
  have hunsigned : ¬ Rule.NextIs Kind.signs tokens := not_nextIs_of_starts hstarts (by decide)
  cases h with
  | unstepped he => exact shape_of_primary he
  | step he hoperator =>
    exact .step hunjoined hunsigned rfl (Use.step_mem.1 hoperator) he.last_not_step
      he.expression_eq

lemma shape_of_signed (h : Derives .signed tokens e) : Shape tokens e := by
  have hunjoined : Unjoined tokens := h.unjoined
  cases h with
  | unsigned he => exact shape_of_stepped he
  | sign hoperator he => exact .sign hunjoined rfl (Use.sign_mem.1 hoperator) he.expression_eq

/-- An outer operator of a level is of that level or of a tighter one. -/
lemma Derives.exists_andTighter (h : Derives (.level level) tokens e)
    (houter : OuterOperator tokens us o vs) :
    ∃ other ∈ level.andTighter, o.kind ∈ other.operators := by
  have hextends := h.mem_extenders houter
  obtain hoperates | hsteps := List.mem_append.1 hextends
  · exact List.mem_flatMap.1 hoperates
  · exact absurd hsteps (not_mem_steps houter.kind)

/-- The operator of an operation is right of all of its level in its left operand, and its right
operand has none. -/
lemma Derives.lastOfLoosest (ha : Derives (.level level) us a)
    (ho : .operation level ∈ o.kind.uses) (hb : Derives level.operand vs b) :
    LastOfLoosest (us ++ o :: vs) level us o vs where
  outer := ha.outerOperator_join (mem_binaryOperators_of_operation ho) vs
  operates := Use.operation_mem.1 ho
  loosest := (Derives.operation ha ho hb).exists_andTighter
  last houter hoperates := by
    obtain ⟨_, hleft⟩ | ⟨rfl, -⟩ | ⟨_, -, hright⟩ :=
      ha.cases_join (mem_binaryOperators_of_operation ho) houter
    · rw [hleft.split, List.length_append]
      omega
    · exact le_rfl
    · exact absurd (hb.mem_extenders hright) (level.not_mem_extenders_operand hoperates)

lemma Derives.firstAssignment (ha : Derives (.level .logicalOr) us a)
    (ho : .assignment ∈ o.kind.uses) : FirstAssignment (us ++ o :: vs) us o vs where
  outer := ha.outerOperator_join (mem_binaryOperators_of_assignment ho) vs
  assigns := Use.assignment_mem.1 ho
  first houter hassigns := by
    obtain ⟨_, hleft⟩ | ⟨rfl, -⟩ | ⟨_, rfl, -⟩ :=
      ha.cases_join (mem_binaryOperators_of_assignment ho) houter
    · exact absurd (ha.mem_extenders hleft) (Kind.not_mem_extenders_of_assignment hassigns)
    · exact le_rfl
    · rw [List.length_append]
      omega

lemma shape_of_level (h : Derives (.level level) tokens e) : Shape tokens e := by
  refine Level.induction (P := fun category => ∀ {tokens e}, Derives category tokens e →
    Shape tokens e) shape_of_signed ?_ level h
  intro level ih tokens e h
  cases h with
  | operand he => exact ih he
  | operation ha hoperator hb =>
    exact .operation (ha.lastOfLoosest hoperator hb) ha.expression_eq hb.expression_eq

lemma shape_of_derives (h : Derives .expression tokens e) : Shape tokens e := by
  cases h with
  | unassigned he => exact shape_of_level he
  | assignment ha hoperator hb =>
    exact .assignment (ha.firstAssignment hoperator) ha.expression_eq hb.expression_eq

/-! ## What has a shape is an expression -/

/-- In front of the leftmost operator that assigns, none does. -/
lemma FirstAssignment.derives_before (h : FirstAssignment tokens before operator after)
    (ha : Derives .expression before a) : Derives (.level .logicalOr) before a := by
  refine ha.level_of_unassigned fun {us o vs} houter hassigns => ?_
  have hwhole : OuterOperator tokens us o (vs ++ operator :: after) :=
    h.outer.split ▸ houter.append_right (operator :: after)
  have hlength : before.length ≤ us.length := h.first hwhole hassigns
  rw [houter.split, List.length_append, List.length_cons] at hlength
  omega

namespace LastOfLoosest

lemma mem_extenders (h : LastOfLoosest tokens level before operator after)
    (houter : OuterOperator tokens us o vs) : o.kind ∈ (Category.level level).extenders :=
  List.mem_append_left _ (List.mem_flatMap.2 (h.loosest houter))

lemma derives_before (h : LastOfLoosest tokens level before operator after)
    (ha : Derives .expression before a) : Derives (.level level) before a := by
  refine ha.level_of_outer fun {us o vs} houter => ?_
  have hwhole : OuterOperator tokens us o (vs ++ operator :: after) :=
    h.outer.split ▸ houter.append_right (operator :: after)
  exact h.mem_extenders hwhole

/-- Behind the rightmost operator of the level, all are of tighter levels. -/
lemma derives_after (h : LastOfLoosest tokens level before operator after)
    (hb : Derives .expression after b) : Derives level.operand after b := by
  have hwhole : ∀ {us o vs}, OuterOperator after us o vs →
      OuterOperator tokens (before ++ [operator] ++ us) o vs := by
    intro us o vs houter
    rw [h.outer.split, List.append_cons]
    exact houter.append_left h.outer.depth_concat
  have hlevel : Derives (.level level) after b :=
    hb.level_of_outer fun houter => h.mem_extenders (hwhole houter)
  refine hlevel.operand_of_outer fun {us o vs} houter hoperates => ?_
  have hlength := h.last (hwhole houter) hoperates
  simp only [List.length_append, List.length_singleton] at hlength
  omega

end LastOfLoosest

lemma derives_of_step (hunjoined : Unjoined (before ++ [operator]))
    (hunsigned : ¬ Rule.NextIs Kind.signs (before ++ [operator]))
    (hsingle : ∀ last ∈ before.getLast?, last.kind ∉ Kind.steps)
    (ha : Derives .expression before a) : Derives .primary before a := by
  have hbefore : Unjoined before := fun _ _ _ houter => hunjoined _ _ _ (houter.append_right _)
  cases ha.signed_of_unjoined hbefore with
  | sign hsign _ => exact absurd (Use.sign_mem.1 hsign) hunsigned
  | unsigned he =>
    cases he with
    | unstepped he => exact he
    | step _ hstep => exact absurd (Use.step_mem.1 hstep) (hsingle _ List.getLast?_concat)

lemma Shape.derives (h : Shape tokens e) : Derives .expression tokens e := by
  cases h with
  | assignment hfirst ha hb =>
    rw [expression_eq_done] at ha hb
    rw [hfirst.outer.split]
    exact .assignment (hfirst.derives_before ha) (Use.assignment_mem.2 hfirst.assigns) hb
  | operation hlast ha hb =>
    rw [expression_eq_done] at ha hb
    rw [hlast.outer.split]
    have hoperation := Derives.operation (hlast.derives_before ha)
      (Use.operation_mem.2 hlast.operates) (hlast.derives_after hb)
    exact hoperation.expression_of_level
  | @sign rest operator _ hunjoined htokens hsign ha =>
    subst htokens
    rw [expression_eq_done] at ha
    have hdepth : depth [operator] = 0 := by simp [Kind.nesting_of_mem_signs hsign]
    have hrest : Unjoined rest := fun _ _ _ houter => hunjoined _ _ _ (houter.append_left hdepth)
    have hsigned := Derives.sign (Use.sign_mem.2 hsign) (ha.signed_of_unjoined hrest)
    exact expression_eq_done.1 hsigned.expression_eq
  | step hunjoined hunsigned htokens hstep hsingle ha =>
    subst htokens
    rw [expression_eq_done] at ha
    have hstepped := Derives.step (derives_of_step hunjoined hunsigned hsingle ha)
      (Use.step_mem.2 hstep)
    exact expression_eq_done.1 hstepped.expression_eq
  | number htokens hkind hvalue => exact htokens ▸ (Derives.number hkind hvalue).of_primary _
  | var htokens hkind => exact htokens ▸ (Derives.var hkind).of_primary _
  | parens _ htokens hleft hright he =>
    rw [expression_eq_done] at he
    exact htokens ▸ (Derives.parens hleft he hright).of_primary _

/-- An expression is read in full just if it is put together from what is read beside the operator
that is applied last. -/
theorem expression_shape (tokens : List Token) (e : Expr) :
    expression tokens = .done e [] ↔ Shape tokens e := by
  rw [expression_eq_done]
  exact ⟨shape_of_derives, Shape.derives⟩

/-- In `a - -b - (c + a) * b++`, the second `-` between operands is applied last. -/
theorem expression_shape_subtraction :
    let a : Token := ⟨.identifier, "a", 1⟩
    let b : Token := ⟨.identifier, "b", 1⟩
    let c : Token := ⟨.identifier, "c", 1⟩
    let minus : Token := .ofKind .minus 1
    let plus : Token := .ofKind .plus 1
    let star : Token := .ofKind .star 1
    let increment : Token := .ofKind .increment 1
    let tokens : List Token := [a, minus, minus, b, minus, .ofKind .leftParen 1, c, plus, a,
      .ofKind .rightParen 1, star, b, increment]
    let left : Expr := .binary minus (.var a) (.unary minus (.var b))
    let right : Expr :=
      .binary star (.binary plus (.var c) (.var a)) (.unary increment (.var b))
    expression tokens = .done (.binary minus left right) [] ∧
      Shape tokens (.binary minus left right) := by
  intro a b c minus plus star increment tokens left right
  have hread : expression tokens = .done (.binary minus left right) [] := rfl
  exact ⟨hread, (expression_shape _ _).1 hread⟩

end Grammar

end ImpSyntax
