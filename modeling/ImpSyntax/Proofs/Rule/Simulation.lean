import ImpSyntax.Proofs.Rule.Recursion
import Mathlib.Data.List.Forall2

/-!
# Rules on tokens that they cannot tell apart

A rule asks for the kind of a token, and for the text of a number.  Tokens that agree in this are
`Alike`, and `Simulates R rule other` says that on lists of such tokens the two rules go the same
way: they read constructs that are related by `R` and leave equally many tokens, or they fail at the
same place for the same reason.  The reason is an `Objection`, which becomes a failure by the token
that it is raised at.

The relation is closed under everything that rules are built from.  Recursion is no exception, for
the bound of an unfolding is a length (`Simulates.fix`), and so repetition is none either
(`Simulates.many`).
-/

namespace ImpSyntax

/-- Rules cannot tell the tokens apart: they are of one kind, and if they are numbers they have the
same text. -/
structure Token.Alike (token other : Token) : Prop where
  kind_eq : token.kind = other.kind
  text_eq : token.kind = .number → token.text = other.text

/-- What may be wrong at a token, or at the end where there is none. -/
inductive Objection where
  /-- A token of one of the kinds is missing there. -/
  | missing (kinds : List Kind)
  /-- An expression is missing there. -/
  | operand
  /-- The number there has no value. -/
  | malformed
deriving DecidableEq, Repr

namespace Objection

/-- The failure that an objection to the given token is, or one to the end. -/
def failure : Objection → Option Token → Failure
  | missing kinds, some token => ⟨.unexpected kinds token.text, some token.line⟩
  | missing kinds, none => ⟨.unexpectedEnd kinds, none⟩
  | operand, next => ⟨.expectedOperand, next.map Token.line⟩
  | malformed, next => ⟨.malformedNumber ((next.map Token.text).getD ""), next.map Token.line⟩

end Objection

namespace Rule

variable {α β γ δ : Type} {R : α → β → Prop} {S : γ → δ → Prop} {kinds : List Kind}

/-- On tokens that they cannot tell apart the rules read related constructs, or raise the same
objection at the same place. -/
def Simulates (R : α → β → Prop) (rule : Rule α) (other : Rule β) : Prop :=
  ∀ ⦃ts us : List Token⦄, List.Forall₂ Token.Alike ts us →
    (∃ n a b, rule ts = .done a (ts.drop n) ∧ other us = .done b (us.drop n) ∧ R a b) ∨
    ∃ (i n : Nat) (objection : Objection),
      rule ts = .failed (objection.failure ts[i]?) (ts.drop n) ∧
        other us = .failed (objection.failure us[i]?) (us.drop n)

lemma Simulates.pure {a : α} {b : β} (h : R a b) : Simulates R (pure a) (pure b) :=
  fun _ _ _ => .inl ⟨0, a, b, rfl, rfl, h⟩

/-- The second rules go on in both lists at the same place. -/
lemma Simulates.bind {rule : Rule α} {other : Rule β} {next : α → Rule γ} {otherNext : β → Rule δ}
    (h : Simulates R rule other) (hnext : ∀ a b, R a b → Simulates S (next a) (otherNext b)) :
    Simulates S (rule >>= next) (other >>= otherNext) := by
  intro ts us halike
  rcases h halike with ⟨n, a, b, hrun, hother, hab⟩ | ⟨i, n, objection, hrun, hother⟩
  · rw [bind_of_done hrun, bind_of_done hother]
    rcases hnext a b hab (List.forall₂_drop n halike) with
      ⟨m, c, d, hsecond, hotherSecond, hcd⟩ | ⟨i, m, objection, hsecond, hotherSecond⟩
    · rw [List.drop_drop] at hsecond hotherSecond
      exact .inl ⟨n + m, c, d, hsecond, hotherSecond, hcd⟩
    · rw [List.drop_drop, List.getElem?_drop] at hsecond hotherSecond
      exact .inr ⟨n + i, n + m, objection, hsecond, hotherSecond⟩
  · exact .inr ⟨i, n, objection, bind_of_failed hrun, bind_of_failed hother⟩

lemma Simulates.bind_pure {rule : Rule α} {other : Rule β} {f : α → γ} {g : β → δ}
    (h : Simulates R rule other) (hmap : ∀ a b, R a b → S (f a) (g b)) :
    Simulates S (rule >>= fun a => Pure.pure (f a)) (other >>= fun b => Pure.pure (g b)) :=
  h.bind fun a b hab => .pure (hmap a b hab)

/-- The same tokens are taken in both lists. -/
lemma Simulates.choose {taken : Token → Rule α} {otherTaken : Token → Rule β}
    {otherwise : Rule α} {otherOtherwise : Rule β}
    (htaken : ∀ token other, token.kind ∈ kinds → Token.Alike token other →
      Simulates R (taken token) (otherTaken other))
    (hother : Simulates R otherwise otherOtherwise) :
    Simulates R (choose kinds taken otherwise) (choose kinds otherTaken otherOtherwise) := by
  intro ts us halike
  cases halike with
  | nil =>
    rw [choose_of_not_nextIs not_nextIs_nil, choose_of_not_nextIs not_nextIs_nil]
    exact hother .nil
  | @cons token other ts us htoken hrest =>
    by_cases hkind : token.kind ∈ kinds
    · have hotherKind : other.kind ∈ kinds := htoken.kind_eq ▸ hkind
      rw [choose_of_mem hkind, choose_of_mem hotherKind]
      rcases htaken token other hkind htoken hrest with
        ⟨n, a, b, hrun, hotherRun, hab⟩ | ⟨i, n, objection, hrun, hotherRun⟩
      · exact .inl ⟨n + 1, a, b, hrun, hotherRun, hab⟩
      · exact .inr ⟨i + 1, n + 1, objection, hrun, hotherRun⟩
    · have hotherKind : other.kind ∉ kinds := htoken.kind_eq ▸ hkind
      rw [choose_of_not_nextIs (by simpa using hkind),
        choose_of_not_nextIs (by simpa using hotherKind)]
      exact hother (.cons htoken hrest)

/-- Numbers that are alike have the same value, or both have none. -/
lemma Simulates.convert {ε : Type} {value? : String → Option ε} {make : ε → Token → α}
    {otherMake : ε → Token → β} {otherwise : Rule α} {otherOtherwise : Rule β}
    (hmake : ∀ value token other, Token.Alike token other →
      R (make value token) (otherMake value other))
    (hother : Simulates R otherwise otherOtherwise) :
    Simulates R (convert [.number] value? make otherwise)
      (convert [.number] value? otherMake otherOtherwise) := by
  intro ts us halike
  cases halike with
  | nil =>
    rw [Rule.convert, Rule.convert, choose_of_not_nextIs not_nextIs_nil,
      choose_of_not_nextIs not_nextIs_nil]
    exact hother .nil
  | @cons token other ts us htoken hrest =>
    by_cases hkind : token.kind ∈ [Kind.number]
    · have hotherKind : other.kind ∈ [Kind.number] := htoken.kind_eq ▸ hkind
      rw [Rule.convert, Rule.convert, choose_of_mem hkind, choose_of_mem hotherKind,
        ← htoken.text_eq (List.mem_singleton.1 hkind)]
      cases hvalue : value? token.text with
      | none =>
        refine .inr ⟨0, 1, .malformed, ?_, ?_⟩
        · rfl
        · rw [htoken.text_eq (List.mem_singleton.1 hkind)]
          rfl
      | some value => exact .inl ⟨1, _, _, rfl, rfl, hmake value token other htoken⟩
    · have hotherKind : other.kind ∉ [Kind.number] := htoken.kind_eq ▸ hkind
      rw [Rule.convert, Rule.convert, choose_of_not_nextIs (by simpa using hkind),
        choose_of_not_nextIs (by simpa using hotherKind)]
      exact hother (.cons htoken hrest)

lemma simulates_expectedOperand :
    Simulates R (failHere .expectedOperand) (failHere .expectedOperand) := by
  intro ts us _
  refine .inr ⟨0, 0, .operand, ?_, ?_⟩
  · cases ts <;> rfl
  · cases us <;> rfl

lemma simulates_unexpected : Simulates R (unexpected kinds) (unexpected kinds) := by
  intro ts us _
  refine .inr ⟨0, 0, .missing kinds, ?_, ?_⟩
  · cases ts <;> rfl
  · cases us <;> rfl

lemma simulates_atEnd : Simulates (· = ·) atEnd atEnd := by
  intro ts us halike
  cases halike with
  | nil => exact .inl ⟨0, true, true, rfl, rfl, rfl⟩
  | cons _ _ => exact .inl ⟨0, false, false, rfl, rfl, rfl⟩

lemma simulates_accept : Simulates (Option.Rel Token.Alike) (accept kinds) (accept kinds) := by
  rw [accept_eq_choose]
  exact .choose (fun _ _ _ halike => .pure (.some halike)) (.pure .none)

lemma simulates_require : Simulates Token.Alike (require kinds) (require kinds) :=
  .choose (fun _ _ _ halike => .pure halike) simulates_unexpected

/-! ## Recursion and repetition -/

/-- Both rules are unfolded equally often, as the two lists have the same length. -/
lemma Simulates.fix {body : Rule α → Rule α} {otherBody : Rule β → Rule β}
    (hbody : ∀ rule other, Simulates R rule other → Simulates R (body rule) (otherBody other)) :
    Simulates R (fix body) (fix otherBody) := by
  have hunfold : ∀ bound otherBound : List Token, bound.length = otherBound.length →
      Simulates R (unfold body bound) (unfold otherBody otherBound) := by
    intro bound
    induction bound with
    | nil =>
      -- past the bound both rules miss an operand
      rintro (_ | ⟨token, otherBound⟩) hlength
      · exact simulates_expectedOperand
      · exact absurd hlength (by simp)
    | cons token bound ih =>
      rintro (_ | ⟨other, otherBound⟩) hlength
      · exact absurd hlength (by simp)
      · exact hbody _ _ (ih otherBound (Nat.succ.inj hlength))
  intro ts us halike
  exact hbody _ _ (hunfold ts us halike.length_eq) halike

lemma Simulates.many {item? : Rule (Option α)} {other? : Rule (Option β)}
    (h : Simulates (Option.Rel R) item? other?) :
    Simulates (List.Forall₂ R) (many item?) (many other?) := by
  refine .fix fun again otherAgain hagain => h.bind ?_
  rintro _ _ (⟨hab⟩ | _)
  · exact hagain.bind_pure fun _ _ hmore => .cons hab hmore
  · exact .pure .nil

end Rule

end ImpSyntax
