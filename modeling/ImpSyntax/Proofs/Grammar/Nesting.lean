import ImpSyntax.Proofs.Grammar.Completeness
import Mathlib.Algebra.BigOperators.Group.List.Basic
import Mathlib.Algebra.Order.Ring.Int
import Mathlib.Data.List.Infix

/-!
# Nesting of parentheses

The place behind some tokens is inside as many parentheses as the tokens open without closing them,
their `depth`.  Parentheses are `Balanced` if nowhere more of them are closed than have been opened
and all of them are closed in the end.  The tokens of every expression are balanced
(`Derives.balanced`), since the operators around its operands are no parentheses.

Depths are integers, so that the depth of an append is a sum whatever the parts are.
-/

namespace ImpSyntax

/-- What a token of the kind adds to the number of open parentheses. -/
def Kind.nesting : Kind → Int
  | .leftParen => 1
  | .rightParen => -1
  | _ => 0

lemma Kind.nesting_of_mem_signs {kind : Kind} (h : kind ∈ Kind.signs) : kind.nesting = 0 := by
  revert kind
  decide

lemma Category.nesting_of_mem_extenders {category : Category} {kind : Kind}
    (h : kind ∈ category.extenders) : kind.nesting = 0 := by
  have hextends : kind ∈ Category.expression.extenders := category.extenders_subset_expression h
  have hnesting : ∀ kind ∈ Category.expression.extenders, kind.nesting = 0 := by decide
  exact hnesting kind hextends

namespace Grammar

/-! ## Depth -/

/-- The number of parentheses that the tokens open and do not close. -/
def depth (tokens : List Token) : Int :=
  (tokens.map fun token => token.kind.nesting).sum

section depth

variable {token : Token} {us vs : List Token}

@[simp] lemma depth_nil : depth [] = 0 := rfl

@[simp] lemma depth_cons : depth (token :: us) = token.kind.nesting + depth us := by
  simp [depth]

@[simp] lemma depth_append : depth (us ++ vs) = depth us + depth vs := by
  simp [depth]

end depth

/-! ## Balanced tokens -/

/-- Every parenthesis that is opened is closed, and no other is. -/
structure Balanced (tokens : List Token) : Prop where
  nonneg : ∀ {us : List Token}, us <+: tokens → 0 ≤ depth us
  closed : depth tokens = 0

namespace Balanced

variable {token left right : Token} {tokens us vs : List Token}

lemma singleton (h : token.kind.nesting = 0) : Balanced [token] where
  nonneg hprefix := by
    obtain rfl | ⟨rest, rfl, hrest⟩ := List.prefix_cons_iff.1 hprefix
    · exact le_refl (0 : Int)
    · simp [List.prefix_nil.1 hrest, h]
  closed := by simp [h]

lemma append (hus : Balanced us) (hvs : Balanced vs) : Balanced (us ++ vs) where
  nonneg hprefix := by
    obtain hws | ⟨rest, rfl⟩ := List.prefix_or_prefix_of_prefix hprefix (List.prefix_append us vs)
    · exact hus.nonneg hws
    · have hrest : rest <+: vs := (List.prefix_append_right_inj us).1 hprefix
      rw [depth_append, hus.closed, zero_add]
      exact hvs.nonneg hrest
  closed := by rw [depth_append, hus.closed, hvs.closed, zero_add]

/-- Balanced tokens on both sides of one that is no parenthesis are balanced. -/
lemma join (hus : Balanced us) (htoken : token.kind.nesting = 0) (hvs : Balanced vs) :
    Balanced (us ++ token :: vs) :=
  hus.append ((singleton htoken).append hvs)

/-- Behind an opening parenthesis, it is open until the balanced tokens after it end. -/
lemma depth_pos (h : Balanced tokens) (hleft : left.kind = .leftParen) (hus : us <+: tokens) :
    0 < depth (left :: us) := by
  have hnesting : left.kind.nesting = 1 := by rw [hleft]; rfl
  have hnonneg : 0 ≤ depth us := h.nonneg hus
  rw [depth_cons, hnesting]
  omega

lemma parens (h : Balanced tokens) (hleft : left.kind = .leftParen)
    (hright : right.kind = .rightParen) : Balanced (left :: (tokens ++ [right])) := by
  have hclosed : depth (left :: (tokens ++ [right])) = 0 := by
    simp [hleft, hright, h.closed, Kind.nesting]
  refine ⟨fun hprefix => ?_, hclosed⟩
  obtain rfl | ⟨rest, rfl, hrest⟩ := List.prefix_cons_iff.1 hprefix
  · exact le_refl (0 : Int)
  obtain rfl | hrest := List.prefix_concat_iff.1 hrest
  · exact hclosed.ge
  · exact (h.depth_pos hleft hrest).le

end Balanced

/-- In an expression, parentheses are balanced. -/
theorem Derives.balanced {category : Category} {tokens : List Token} {e : Expr}
    (h : Derives category tokens e) : Balanced tokens := by
  induction h with
  | number hkind _ => exact .singleton (by rw [hkind]; rfl)
  | var hkind => exact .singleton (by rw [hkind]; rfl)
  | parens hleft _ hright ih => exact ih.parens hleft hright
  | unstepped _ ih => exact ih
  | @step operator _ _ _ hoperator ih =>
    have hextends : operator.kind ∈ Category.stepped.extenders := Use.step_mem.1 hoperator
    exact ih.append (.singleton (Category.nesting_of_mem_extenders hextends))
  | unsigned _ ih => exact ih
  | sign hoperator _ ih =>
    have hsign := Use.sign_mem.1 hoperator
    exact Balanced.append (.singleton (Kind.nesting_of_mem_signs hsign)) ih
  | operand _ ih => exact ih
  | @operation level _ _ _ _ _ _ hoperator _ iha ihb =>
    have hextends := level.operators_subset_extenders (Use.operation_mem.1 hoperator)
    exact iha.join (Category.nesting_of_mem_extenders hextends) ihb
  | unassigned _ ih => exact ih
  | assignment _ hoperator _ iha ihb =>
    have hextends := Kind.assignments_subset_extenders (Use.assignment_mem.1 hoperator)
    exact iha.join (Category.nesting_of_mem_extenders hextends) ihb

end Grammar

end ImpSyntax
