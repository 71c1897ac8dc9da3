import ImpSyntax.Cursor
import ImpSyntax.Proofs.Rule.Composed

/-!
# The places of a cursor

A cursor is a position in a list of tokens, while rules know only the tokens ahead.  This file goes
from the one to the other.  Using a rule splits the tokens ahead into those it consumes and those it
leaves, and moves the cursor past the former (`apply_eq_forward`), so that the position is the number
of all tokens that were ever consumed.

A position past the end is no place in the list, and a cursor does not get there: `InBounds` says so
of a cursor.
-/

namespace ImpSyntax

open Rule

namespace Cursor

variable {α : Type} {cursor next : Cursor} {rule : Rule α} {us rest : List Token}

/-- The cursor is at one of its tokens or at the end. -/
def InBounds (cursor : Cursor) : Prop :=
  cursor.position ≤ cursor.tokens.length

instance (cursor : Cursor) : Decidable cursor.InBounds :=
  inferInstanceAs (Decidable (_ ≤ _))

/-- The cursor moved past some more tokens. -/
def forward (cursor : Cursor) (count : Nat) : Cursor :=
  { cursor with position := cursor.position + count }

@[simp] lemma tokens_forward (count : Nat) : (cursor.forward count).tokens = cursor.tokens := rfl

@[simp] lemma position_forward (count : Nat) :
    (cursor.forward count).position = cursor.position + count := rfl

lemma inBounds_start (tokens : List Token) : (start tokens).InBounds :=
  Nat.zero_le _

/-! ## The tokens ahead -/

lemma length_ahead : cursor.ahead.length = cursor.tokens.length - cursor.position :=
  List.length_drop

lemma getElem?_ahead (j : Nat) : cursor.ahead[j]? = cursor.tokens[cursor.position + j]? :=
  List.getElem?_drop

lemma head?_ahead : cursor.ahead.head? = cursor.tokens[cursor.position]? :=
  List.head?_drop

/-- There is a next token unless the cursor is at the end. -/
lemma InBounds.getElem?_eq_none (h : cursor.InBounds) :
    cursor.tokens[cursor.position]? = none ↔ cursor.position = cursor.tokens.length := by
  rw [List.getElem?_eq_none_iff]
  exact ⟨fun hle => Nat.le_antisymm h hle, Nat.le_of_eq ∘ Eq.symm⟩

lemma moveTo_eq_forward (h : cursor.InBounds) (hahead : cursor.ahead = us ++ rest) :
    cursor.moveTo rest = cursor.forward us.length := by
  have hlength : us.length + rest.length = cursor.tokens.length - cursor.position := by
    rw [← length_ahead, hahead, List.length_append]
  have hbound : cursor.position ≤ cursor.tokens.length := h
  have hposition : cursor.tokens.length - rest.length = cursor.position + us.length := by omega
  rw [moveTo, forward, hposition]

lemma moveTo_ahead (h : cursor.InBounds) : cursor.moveTo cursor.ahead = cursor :=
  moveTo_eq_forward h (List.nil_append _).symm

lemma InBounds.forward (h : cursor.InBounds) (hahead : cursor.ahead = us ++ rest) :
    (cursor.forward us.length).InBounds := by
  rw [← moveTo_eq_forward h hahead]
  exact Nat.sub_le _ _

lemma ahead_forward (hahead : cursor.ahead = us ++ rest) :
    (cursor.forward us.length).ahead = rest := by
  rw [ahead, tokens_forward, position_forward, ← List.drop_drop]
  show cursor.ahead.drop us.length = rest
  rw [hahead, List.drop_left]

/-- The tokens from one place to another are those that were ahead and no longer are. -/
lemma extract_moveTo (hahead : cursor.ahead = us ++ rest) :
    cursor.tokens.extract cursor.position (cursor.moveTo rest).position = us := by
  have hlength : us.length + rest.length = cursor.tokens.length - cursor.position := by
    rw [← length_ahead, hahead, List.length_append]
  have hcount : cursor.tokens.length - rest.length - cursor.position = us.length := by omega
  show cursor.ahead.take (cursor.tokens.length - rest.length - cursor.position) = us
  rw [hcount, hahead, List.take_left]

/-! ## Using a rule -/

lemma apply_eq_ok {a : α} : cursor.apply rule = (.ok a, next) ↔
    ∃ rest, rule cursor.ahead = .done a rest ∧ next = cursor.moveTo rest := by
  rw [apply]
  cases rule cursor.ahead <;> simp [Outcome.result, eq_comm]

/-- A composed rule moves the cursor past the tokens it consumes, which were ahead. -/
lemma apply_eq_forward (hrule : Composed rule) (h : cursor.InBounds) :
    ∃ us, cursor.ahead = us ++ (rule cursor.ahead).rest ∧
      cursor.apply rule = ((rule cursor.ahead).result, cursor.forward us.length) := by
  obtain ⟨us, hus⟩ := hrule.leavesSuffix cursor.ahead
  exact ⟨us, hus.symm, by rw [apply, moveTo_eq_forward h hus.symm]⟩

/-! ## Answers -/

lemma answer_of_done {read : α → Answer} {a : α} (hrun : rule cursor.ahead = .done a rest) :
    cursor.answer rule read = (read a, cursor.moveTo rest) := by
  rw [answer, apply, hrun]
  rfl

lemma answer_of_failed {read : α → Answer} {failure : Failure}
    (hrun : rule cursor.ahead = .failed failure rest) :
    cursor.answer rule read = (.failure failure, cursor.moveTo rest) := by
  rw [answer, apply, hrun]
  rfl

lemma answer_eq (rule : Rule α) (read : α → Answer) : cursor.answer rule read =
    ((match (cursor.apply rule).1 with
      | .ok a => read a
      | .error failure => .failure failure), (cursor.apply rule).2) := by
  rw [answer]
  rcases cursor.apply rule with ⟨_ | _, next⟩ <;> rfl

end Cursor

end ImpSyntax
