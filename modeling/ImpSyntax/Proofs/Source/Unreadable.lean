import ImpSyntax.Proofs.Source.Elements

/-!
# Sources without tokens

A text is `Unreadable` if it begins with a block comment that is never closed, or with a character
that begins no element at all.  The latter is said without the elements: it is neither blank nor a
letter, a digit or an underscore, and none of the characters that symbols are made of.

These are the texts at which nothing is found (`front?_eq_none`), so a division is stuck just at
them (`Unreadable.divide_eq`), and reading tokens fails just where one follows complete elements.

The main result is `tokenize_fails_exactly`.
-/

namespace ImpSyntax

open Element

/-- The characters that are symbols by themselves. -/
def symbolCharacters : List Char :=
  "\x7b\x7d()=!<>|&^;,+-/*".toList

/-- The text begins with an offending text, which is the second argument. -/
inductive Unreadable : List Char → List Char → Prop where
  /-- The opening of a comment that is never closed. -/
  | comment {body : List Char} (hopen : ¬ ['*', '/'] <:+: body) :
      Unreadable ('/' :: '*' :: body) ['/', '*']
  /-- A character that begins no element. -/
  | character {c : Char} {s : List Char} (hblank : Text.isBlank c = false)
      (hword : isWordPart c = false) (hsymbol : c ∉ symbolCharacters) : Unreadable (c :: s) [c]

/-! ## Where no element begins -/

lemma commentLength?_eq_none {s : List Char} :
    commentLength? s = none ↔ ¬ ['*', '/'] <:+: s := by
  induction s with
  | nil => simp [commentLength?]
  | cons c s ih =>
    rw [List.infix_cons_iff]
    by_cases hend : ['*', '/'] <+: c :: s
    · obtain ⟨after, heq⟩ := hend
      rw [← heq]
      simp [commentLength?]
    · rw [commentLength?_cons hend, Option.map_eq_none_iff, ih]
      simp [hend]

/-- The symbols are made of the symbol characters, and each of these is a symbol. -/
lemma symbol?_eq_none {c : Char} {s : List Char} : symbol? c s = none ↔ c ∉ symbolCharacters := by
  have hmade : ∀ kind ∈ Kind.symbols, ∀ lexeme ∈ kind.lexeme?,
      lexeme.toList ⊆ symbolCharacters := by
    decide
  have halone : symbolCharacters.all (fun d => (Kind.ofSymbol? [d]).isSome) = true := by
    decide
  constructor
  · intro h hmem
    obtain ⟨kind, hkind⟩ := Option.isSome_iff_exists.1 (List.all_eq_true.1 halone c hmem)
    unfold symbol? at h
    rw [hkind] at h
    split at h
    · exact absurd h (by simp)
    · exact absurd h (by simp)
  · intro hnot
    have hnone : ∀ t, Kind.ofSymbol? (c :: t) = none := by
      intro t
      refine Option.eq_none_iff_forall_ne_some.2 fun kind hkind => hnot ?_
      obtain ⟨hmem, hspelled⟩ := Kind.ofSymbol?_eq_some.1 hkind
      exact hmade kind hmem _ hspelled (by simp)
    rw [symbol?, hnone, hnone]
    rfl

lemma lexeme?_eq_none {c : Char} {s : List Char} :
    lexeme? c s = none ↔ isWordPart c = false ∧ c ∉ symbolCharacters := by
  by_cases hstart : isWordStart c = true
  · simp [lexeme?, hstart, isWordPart_of_isWordStart hstart]
  by_cases hdigit : c.isDigit = true
  · simp [lexeme?_of_digit hdigit, isWordPart_of_isDigit hdigit]
  have hpart : isWordPart c = false := isWordPart_eq_false hstart hdigit
  rw [lexeme?_of_symbol hpart, symbol?_eq_none]
  simp [hpart]

namespace Unreadable

variable {c : Char} {s rest offending : List Char}

lemma not_slash (hsymbol : c ∉ symbolCharacters) : c ≠ '/' := by
  rintro rfl
  exact absurd hsymbol (by decide)

lemma offendingText_eq (h : Unreadable rest offending) : offendingText rest = offending := by
  cases h with
  | comment _ => rfl
  | character _ _ hsymbol =>
    unfold offendingText
    split
    · rename_i heq
      exact absurd (List.cons.inj heq).1 (not_slash hsymbol)
    · rfl

/-- No element is found at the front of an unreadable text. -/
lemma front?_eq_none (h : Unreadable (c :: s) offending) : front? c s = none := by
  generalize hrest : c :: s = rest at h
  cases h with
  | comment hopen =>
    obtain ⟨rfl, rfl⟩ := List.cons.inj hrest
    rw [front?, gap?_block, commentLength?_eq_none.2 hopen]
    rfl
  | character hblank hword hsymbol =>
    obtain ⟨rfl, rfl⟩ := List.cons.inj hrest
    have hslash : ∀ d, ¬ ['/', d] <+: c :: s := fun d hbegins =>
      not_slash hsymbol (List.cons_prefix_cons.1 hbegins).1.symm
    have hopens : ¬ opensComment c s = true := fun hopens => hslash '*' (opensComment_iff.1 hopens)
    rw [front?, gap?_eq_none hblank (hslash '/') (hslash '*')]
    dsimp only
    rw [if_neg hopens, lexeme?_eq_none.2 ⟨hword, hsymbol⟩]
    rfl

/-- Where no element is found, the text is unreadable. -/
lemma of_front?_eq_none (h : front? c s = none) :
    Unreadable (c :: s) (offendingText (c :: s)) := by
  have hgap : gap? c s = none := by
    cases hfound : gap? c s with
    | none => rfl
    | some more =>
      rw [front?_of_gap? hfound] at h
      exact absurd h (by simp)
  by_cases hopens : ['/', '*'] <+: c :: s
  · obtain ⟨body, heq⟩ := hopens
    obtain ⟨rfl, rfl⟩ : '/' = c ∧ '*' :: body = s := List.cons.inj heq
    rw [gap?_block, Option.map_eq_none_iff, commentLength?_eq_none] at hgap
    exact .comment hgap
  · have hopening : ¬ opensComment c s = true :=
      fun hopening => hopens (opensComment_iff.1 hopening)
    rw [front?, hgap] at h
    dsimp only at h
    rw [if_neg hopening, Option.map_eq_none_iff, lexeme?_eq_none] at h
    have hblank : Text.isBlank c = false := by
      refine Bool.eq_false_iff.2 fun hblank => ?_
      rw [gap?_blank hblank] at hgap
      exact absurd hgap (by simp)
    have hcharacter : Unreadable (c :: s) [c] := .character hblank h.1 h.2
    rwa [hcharacter.offendingText_eq]

/-- A division is stuck at an unreadable text. -/
lemma divide_eq (h : Unreadable rest offending) : divide rest = ⟨[], rest⟩ := by
  cases rest with
  | nil => cases h
  | cons c s => exact divide_stuck h.front?_eq_none

lemma ne_nil (h : Unreadable rest offending) : rest ≠ [] := by
  rintro rfl
  cases h

end Unreadable

/-- A division that does not reach the end is stuck at an unreadable text. -/
lemma unreadable_of_divide {s : List Char} (h : (divide s).stuck ≠ []) :
    Unreadable (divide s).stuck (offendingText (divide s).stuck) := by
  obtain ⟨c, rest, hstuck⟩ := List.exists_cons_of_ne_nil h
  rw [hstuck]
  exact .of_front?_eq_none (front?_of_stuck hstuck)

/-! ## Failing sources -/

section Failing

variable {source : String} {consumed rest offending : List Char}

/-- Behind complete elements an unreadable text makes reading tokens fail. -/
lemma Unreadable.tokenize_eq (h : Unreadable rest offending) (helements : Elements consumed rest)
    (htext : source.toList = consumed ++ rest) :
    tokenize source =
      .error ⟨.unrecognised (String.ofList offending), some (lineAt consumed)⟩ := by
  have hstuck : (divide source.toList).stuck = rest := by
    rw [htext, helements.stuck_append, h.divide_eq]
  have hpassed : (divide source.toList).pieces.flatMap Piece.text = consumed := by
    have hdivide := text_divide source.toList
    rw [hstuck] at hdivide
    exact List.append_cancel_right (hdivide.trans htext)
  refine tokenize_eq_error.2 ⟨hstuck ▸ h.ne_nil, ?_⟩
  rw [hstuck, hpassed, h.offendingText_eq]

/-- Where reading tokens fails, an unreadable text follows complete elements. -/
lemma exists_unreadable {failure : Failure} (h : tokenize source = .error failure) :
    ∃ consumed rest offending, source.toList = consumed ++ rest ∧ Elements consumed rest ∧
      Unreadable rest offending ∧
      failure = ⟨.unrecognised (String.ofList offending), some (lineAt consumed)⟩ := by
  obtain ⟨hstuck, hfailure⟩ := tokenize_eq_error.1 h
  exact ⟨_, _, _, (text_divide source.toList).symm, elements_divide _, unreadable_of_divide hstuck,
    hfailure⟩

lemma toNat_lineAt_of_append (hlines : source.toList.count '\n' < UInt32.size - 1)
    (htext : source.toList = consumed ++ rest) :
    (lineAt consumed).toNat = 1 + consumed.count '\n' := by
  rw [htext, List.count_append] at hlines
  exact toNat_lineAt (by omega)

end Failing

/-- Reading tokens fails just where an unreadable text follows complete elements.  The failure tells
the offending text and its line.  Without the unreadable text the source would have tokens. -/
theorem tokenize_fails_exactly {source : String}
    (hlines : source.toList.count '\n' < UInt32.size - 1) :
    (∀ failure, tokenize source = .error failure ↔ ∃ consumed rest offending line,
      source.toList = consumed ++ rest ∧ Elements consumed rest ∧ Unreadable rest offending ∧
      line.toNat = 1 + consumed.count '\n' ∧
      failure = ⟨.unrecognised (String.ofList offending), some line⟩) ∧
    ∀ consumed rest offending, source.toList = consumed ++ rest → Elements consumed rest →
      Unreadable rest offending → ∃ tokens, tokenize (String.ofList consumed) = .ok tokens := by
  refine ⟨fun failure => ⟨fun h => ?_, ?_⟩, fun consumed rest offending _ helements _ => ?_⟩
  · obtain ⟨consumed, rest, offending, htext, helements, hunreadable, rfl⟩ := exists_unreadable h
    have hline := toNat_lineAt_of_append hlines htext
    exact ⟨consumed, rest, offending, _, htext, helements, hunreadable, hline, rfl⟩
  · rintro ⟨consumed, rest, offending, line, htext, helements, hunreadable, hline, rfl⟩
    obtain rfl : line = lineAt consumed :=
      UInt32.toNat_inj.1 (hline.trans (toNat_lineAt_of_append hlines htext).symm)
    exact hunreadable.tokenize_eq helements htext
  · have halone : Elements consumed [] := helements.truncate
    rw [← String.toList_ofList (l := consumed)] at halone
    exact ⟨_, tokenize_eq_ok_iff.2 ⟨halone, rfl⟩⟩

/-- A second point does not belong to a number, and neither does it begin anything else. -/
theorem tokenize_fails_exactly_point :
    let source := "//@\n1.5.2"
    source.toList.count '\n' < UInt32.size - 1 ∧ ∃ consumed rest offending line,
      (source.toList = consumed ++ rest ∧ Elements consumed rest ∧ Unreadable rest offending ∧
        line.toNat = 1 + consumed.count '\n' ∧
        (⟨.unrecognised ".", some 2⟩ : Failure) =
          ⟨.unrecognised (String.ofList offending), some line⟩) ∧
      ∃ tokens, tokenize (String.ofList consumed) = .ok tokens := by
  intro source
  have hlines : source.toList.count '\n' < UInt32.size - 1 := by decide
  have hfails : tokenize source = .error ⟨.unrecognised ".", some 2⟩ := by decide +kernel
  obtain ⟨consumed, rest, offending, line, hplace⟩ :=
    ((tokenize_fails_exactly hlines).1 _).1 hfails
  have hbefore := (tokenize_fails_exactly hlines).2 consumed rest offending hplace.1 hplace.2.1
    hplace.2.2.1
  exact ⟨hlines, consumed, rest, offending, line, hplace, hbefore⟩

end ImpSyntax
