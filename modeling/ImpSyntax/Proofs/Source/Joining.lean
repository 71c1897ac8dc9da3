import ImpSyntax.Proofs.Source.Unreadable

/-!
# Sources on top of each other

One source is put below another by a line feed between them.  Elements that were complete at the end
of the upper source are complete in front of that line feed too, and the line feed is a blank, so
the elements of the lower source begin anew behind it (`Elements.join`).  Whatever the upper source
ends with, nothing grows together with the lower one.

The tokens of the lower source, and its failure, are those it has alone on other lines.  `lowered`
moves tokens and failures by a number of lines.  Moving does not count beyond the last line there is
as long as both sources together have few enough lines (`toNat_lowered`).

The main result is `tokenize_below`.
-/

namespace ImpSyntax

open Element Layout

/-! ## Further down -/

/-- The token on a line further down. -/
def Token.lowered (lines : Nat) (token : Token) : Token :=
  { token with line := token.line + UInt32.ofNat lines }

/-- The failure on a line further down. -/
def Failure.lowered (lines : Nat) (failure : Failure) : Failure :=
  { failure with line := failure.line.map (· + UInt32.ofNat lines) }

lemma toNat_lowered {line : LineNumber} {lines : Nat} (h : line.toNat + lines < UInt32.size) :
    (line + UInt32.ofNat lines).toNat = line.toNat + lines := by
  have hlines : (UInt32.ofNat lines).toNat = lines := UInt32.toNat_ofNat_of_lt' (by omega)
  rw [UInt32.toNat_add, hlines]
  exact Nat.mod_eq_of_lt h

/-- The tokens of pieces that begin further down are the same tokens further down. -/
lemma tokens_lowered (line : LineNumber) (lines : Nat) (pieces : List Piece) :
    Piece.tokens (line + UInt32.ofNat lines) pieces =
      (Piece.tokens line pieces).map (Token.lowered lines) := by
  induction pieces generalizing line with
  | nil => rfl
  | cons piece pieces ih =>
    have hnext : line + UInt32.ofNat lines + Text.lineBreaks piece.text =
        line + Text.lineBreaks piece.text + UInt32.ofNat lines := by
      rw [UInt32.add_assoc, UInt32.add_assoc, UInt32.add_comm (UInt32.ofNat lines)]
    rw [Piece.tokens, Piece.tokens, hnext, ih]
    cases piece.role <;> rfl

/-- The tokens of a source have the numbers of its lines. -/
lemma Layout.Fits.toNat_line_le {passed : List Char} {layout : Layout} (h : Fits passed layout) :
    ∀ token ∈ layout.tokens, token.line.toNat ≤ 1 + (passed ++ layout.text).count '\n' := by
  induction h with
  | last _ => exact fun token hmem => absurd hmem List.not_mem_nil
  | @cons passed gap first layout _ _ hline _ ih =>
    rw [text_cons]
    rintro token (_ | ⟨_, hmem⟩)
    · rw [hline]
      simp only [List.count_append]
      omega
    · have hrest := ih token hmem
      simpa using hrest

/-! ## One source below another -/

section Below

variable {upper lower consumed rest : List Char} {line : LineNumber}

lemma Elements.join (hupper : Elements upper []) (hlower : Elements lower rest) :
    Elements (upper ++ '\n' :: lower) rest := by
  have hbefore : Elements upper ('\n' :: lower ++ rest) := hupper.before_break
  have hbreak : Elements ('\n' :: lower) rest := .gap (.blank (by decide)) hlower
  exact hbefore.append hbreak

/-- The number of a line below a source. -/
lemma lineAt_join (upper lower : List Char) :
    lineAt (upper ++ '\n' :: lower) = lineAt lower + UInt32.ofNat (1 + upper.count '\n') := by
  rw [lineAt, lineAt, ← UInt32.ofNat_add, List.count_append, List.count_cons_self]
  congr 1
  omega

lemma tokensFrom_join (hupper : Elements upper []) :
    tokensFrom 1 (upper ++ '\n' :: lower) =
      tokensFrom 1 upper ++ (tokensFrom 1 lower).map (Token.lowered (1 + upper.count '\n')) := by
  have hbefore : Elements upper ('\n' :: lower) := hupper.before_break
  have hbreak : GapPart ['\n'] lower := .blank (by decide)
  have hline : 1 + Text.lineBreaks upper + Text.lineBreaks ['\n'] =
      1 + UInt32.ofNat (1 + upper.count '\n') := by
    rw [← lineBreaks_append, Text.lineBreaks, List.count_append, Nat.add_comm]
    rfl
  rw [hbefore.tokensFrom_append]
  congr 1
  calc tokensFrom (1 + Text.lineBreaks upper) (['\n'] ++ lower)
      = tokensFrom (1 + Text.lineBreaks upper + Text.lineBreaks ['\n']) lower :=
        tokensFrom_gapPart _ hbreak
    _ = tokensFrom (1 + UInt32.ofNat (1 + upper.count '\n')) lower := by rw [hline]
    _ = (tokensFrom 1 lower).map (Token.lowered (1 + upper.count '\n')) := tokens_lowered _ _ _

end Below

section Sources

variable {upper lower : String} {us vs : List Token} {failure : Failure}

lemma toList_join (upper lower : String) :
    (upper ++ "\n" ++ lower).toList = upper.toList ++ '\n' :: lower.toList := by
  simp

/-- Both sources have tokens. -/
lemma tokenize_join (hupper : tokenize upper = .ok us) (hlower : tokenize lower = .ok vs) :
    tokenize (upper ++ "\n" ++ lower) =
      .ok (us ++ vs.map (Token.lowered (1 + upper.toList.count '\n'))) := by
  obtain ⟨hupperElements, rfl⟩ := tokenize_eq_ok_iff.1 hupper
  obtain ⟨hlowerElements, rfl⟩ := tokenize_eq_ok_iff.1 hlower
  rw [tokenize_eq_ok_iff, toList_join]
  exact ⟨hupperElements.join hlowerElements, tokensFrom_join hupperElements⟩

/-- Only the upper source has tokens. -/
lemma tokenize_join_of_error (hupper : tokenize upper = .ok us)
    (hlower : tokenize lower = .error failure) :
    tokenize (upper ++ "\n" ++ lower) =
      .error (failure.lowered (1 + upper.toList.count '\n')) := by
  obtain ⟨hupperElements, -⟩ := tokenize_eq_ok_iff.1 hupper
  obtain ⟨consumed, rest, offending, htext, helements, hunreadable, rfl⟩ :=
    exists_unreadable hlower
  have hsource : (upper ++ "\n" ++ lower).toList = upper.toList ++ '\n' :: consumed ++ rest := by
    rw [toList_join, htext]
    simp
  rw [hunreadable.tokenize_eq (hupperElements.join helements) hsource, lineAt_join]
  rfl

/-- The upper source has a character that begins no element. -/
lemma tokenize_join_of_character {c : Char} (hupper : tokenize upper = .error failure)
    (hfault : failure.fault = .unrecognised (String.ofList [c])) (lower : String) :
    tokenize (upper ++ "\n" ++ lower) = .error failure := by
  obtain ⟨consumed, rest, offending, htext, helements, hunreadable, rfl⟩ :=
    exists_unreadable hupper
  cases hunreadable with
  | comment _ =>
    have hlength := String.ofList_injective (Fault.unrecognised.inj hfault)
    exact absurd (congrArg List.length hlength) (by simp)
  | @character d s hblank hword hsymbol =>
    have hlonger : Unreadable (d :: (s ++ '\n' :: lower.toList)) [d] :=
      .character hblank hword hsymbol
    have hsource : (upper ++ "\n" ++ lower).toList =
        consumed ++ d :: (s ++ '\n' :: lower.toList) := by
      rw [toList_join, htext]
      simp
    exact hlonger.tokenize_eq helements.before_break hsource

/-- The tokens of a source have lines that are left when it is put below another one. -/
lemma toNat_lowered_of_tokenize {lines : Nat}
    (hlines : lines + lower.toList.count '\n' < UInt32.size - 1)
    (hlower : tokenize lower = .ok vs) :
    ∀ token ∈ vs, (token.lowered lines).line.toNat = token.line.toNat + lines := by
  obtain ⟨layout, htext, hfits, rfl⟩ := exists_layout (by omega) hlower
  intro token hmem
  have hline := hfits.toNat_line_le token hmem
  rw [List.nil_append, htext] at hline
  exact toNat_lowered (by omega)

/-- So does its failure. -/
lemma toNat_lowered_of_error {lines : Nat}
    (hlines : lines + lower.toList.count '\n' < UInt32.size - 1)
    (hlower : tokenize lower = .error failure) :
    (failure.lowered lines).line.map UInt32.toNat =
      failure.line.map fun line => line.toNat + lines := by
  obtain ⟨consumed, rest, offending, htext, -, -, rfl⟩ := exists_unreadable hlower
  have hline := toNat_lineAt_of_append (by omega) htext
  rw [htext, List.count_append] at hlines
  exact congrArg some (toNat_lowered (by omega))

end Sources

/-- Two sources, one below the other.  If the upper one has tokens, then the tokens of the lower one
come behind them, or the lower one fails, on lines that are moved down by those of the upper one.
If the upper one has a character that begins no element, then it fails whatever is below. -/
theorem tokenize_below {upper lower : String}
    (hlines : upper.toList.count '\n' + lower.toList.count '\n' < UInt32.size - 2) :
    let lines := 1 + upper.toList.count '\n'
    (∀ us, tokenize upper = .ok us →
      (∀ vs, tokenize lower = .ok vs →
        tokenize (upper ++ "\n" ++ lower) = .ok (us ++ vs.map (Token.lowered lines)) ∧
          ∀ token ∈ vs, (token.lowered lines).line.toNat = token.line.toNat + lines) ∧
      ∀ failure, tokenize lower = .error failure →
        tokenize (upper ++ "\n" ++ lower) = .error (failure.lowered lines) ∧
          (failure.lowered lines).line.map UInt32.toNat =
            failure.line.map fun line => line.toNat + lines) ∧
    ∀ failure c, tokenize upper = .error failure →
      failure.fault = .unrecognised (String.ofList [c]) →
      tokenize (upper ++ "\n" ++ lower) = .error failure := by
  intro lines
  have hfew : lines + lower.toList.count '\n' < UInt32.size - 1 := by omega
  refine ⟨fun us hupper => ⟨fun vs hlower => ?_, fun failure hlower => ?_⟩,
    fun failure c hupper hfault => tokenize_join_of_character hupper hfault lower⟩
  · exact ⟨tokenize_join hupper hlower, toNat_lowered_of_tokenize hfew hlower⟩
  · exact ⟨tokenize_join_of_error hupper hlower, toNat_lowered_of_error hfew hlower⟩

/-- A slash at the end of a line and one at the beginning of the next do not open a comment. -/
theorem tokenize_below_slash :
    let upper := "a\n/"
    let lower := "/=\nb@"
    upper.toList.count '\n' + lower.toList.count '\n' < UInt32.size - 2 ∧
      tokenize (upper ++ "\n" ++ "/") =
        .ok [⟨.identifier, "a", 1⟩, ⟨.slash, "/", 2⟩, ⟨.slash, "/", 3⟩] ∧
      tokenize (upper ++ "\n" ++ lower) = .error ⟨.unrecognised "@", some 4⟩ ∧
      tokenize (lower ++ "\n" ++ upper) = .error ⟨.unrecognised "@", some 2⟩ := by
  intro upper lower
  have hlines : upper.toList.count '\n' + lower.toList.count '\n' < UInt32.size - 2 := by decide
  have hupper : tokenize upper = .ok [⟨.identifier, "a", 1⟩, ⟨.slash, "/", 2⟩] := by
    decide +kernel
  have hslash : tokenize "/" = .ok [⟨.slash, "/", 1⟩] := by decide +kernel
  have hlower : tokenize lower = .error ⟨.unrecognised "@", some 2⟩ := by decide +kernel
  refine ⟨hlines, ?_, ?_, ?_⟩
  · rw [(((tokenize_below (by decide)).1 _ hupper).1 _ hslash).1]
    decide +kernel
  · rw [(((tokenize_below hlines).1 _ hupper).2 _ hlower).1]
    decide +kernel
  · exact (tokenize_below (by decide)).2 _ '@' hlower rfl

end ImpSyntax
