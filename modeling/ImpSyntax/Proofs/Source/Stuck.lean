import ImpSyntax.Proofs.Source.Layout

/-!
# Where a division is stuck

A division takes nothing away: the texts of its pieces and what it is stuck at are the source
(`text_divide`).  What it is stuck at begins with a character that starts no element, which is
therefore not blank, and the line it is on counts the line feeds of the pieces.
-/

namespace ImpSyntax

open Element

/-- The pieces of a source and what is left of it make up the source. -/
lemma text_divide (s : List Char) :
    (divide s).pieces.flatMap Piece.text ++ (divide s).stuck = s := by
  induction s using divide_induction with
  | nil => rfl
  | stuck c s _ => rfl
  | gap c t after _ ih => simpa [Division.cons] using ih
  | lexeme kind c t after _ ih => simpa [Division.cons] using ih

lemma eq_of_divide {s stuck : List Char} {pieces : List Piece} (h : divide s = ⟨pieces, stuck⟩) :
    s = pieces.flatMap Piece.text ++ stuck := by
  have htext := text_divide s
  rw [h] at htext
  exact htext.symm

lemma front?_of_stuck {s t : List Char} {c : Char} (h : (divide s).stuck = c :: t) :
    front? c t = none := by
  induction s using divide_induction with
  | nil => exact absurd h (by simp)
  | stuck d s hfront =>
    obtain ⟨rfl, rfl⟩ := List.cons.inj h
    exact hfront
  | gap d t after _ ih => exact ih h
  | lexeme kind d t after _ ih => exact ih h

/-- A blank starts a gap. -/
lemma not_blank_of_stuck {s t : List Char} {c : Char} (h : (divide s).stuck = c :: t) :
    Text.isBlank c = false := by
  refine Bool.eq_false_iff.2 fun hblank => ?_
  have hfront := front?_of_gap? (gap?_blank (s := t) hblank)
  rw [front?_of_stuck h] at hfront
  exact absurd hfront (by simp)

lemma lineAfter_lineAt (passed : List Char) (pieces : List Piece) :
    Piece.lineAfter (lineAt passed) pieces = lineAt (passed ++ pieces.flatMap Piece.text) := by
  induction pieces generalizing passed with
  | nil => simp [Piece.lineAfter]
  | cons piece pieces ih =>
    rw [Piece.lineAfter, List.foldl_cons, lineAt_add_lineBreaks, List.flatMap_cons,
      ← List.append_assoc]
    exact ih (passed ++ piece.text)

/-- Reading tokens fails where the division is stuck, on the line of that place. -/
lemma tokenize_eq_error {source : String} {failure : Failure} :
    tokenize source = .error failure ↔ (divide source.toList).stuck ≠ [] ∧
      failure = ⟨.unrecognised (String.ofList (offendingText (divide source.toList).stuck)),
        some (lineAt ((divide source.toList).pieces.flatMap Piece.text))⟩ := by
  have hline : Piece.lineAfter 1 (divide source.toList).pieces =
      lineAt ((divide source.toList).pieces.flatMap Piece.text) :=
    lineAfter_lineAt [] _
  rw [tokenize, hline]
  split
  · rename_i hstuck
    simp [hstuck]
  · rename_i hstuck
    simp [hstuck, eq_comm]

lemma line_of_tokenize {source : String} {failure : Failure} {pieces : List Piece}
    {stuck : List Char} (h : tokenize source = .error failure)
    (hdivide : divide source.toList = ⟨pieces, stuck⟩) :
    failure.line = some (lineAt (pieces.flatMap Piece.text)) := by
  obtain ⟨-, rfl⟩ := tokenize_eq_error.1 h
  rw [hdivide]

end ImpSyntax
