import ImpSyntax.Number.Numeral
import ImpSyntax.Proofs.Source.Lexeme
import Mathlib.Data.List.TakeDrop

/-!
# The value of a number in a source

A numeral may have a sign, an exponent or no digits at all.  Numbers in a source are digits with at
most a point among them, and these always denote a decimal without a minus
(`numberValue?_of_lexeme`), so there is no number without a value in a source, and none whose value
is NaN or negative.
-/

namespace ImpSyntax

lemma Binary64.equal_self {value : Binary64} (h : value ≠ .nan) : value.equal value = true := by
  cases value with
  | nan => exact absurd rfl h
  | infinite negative => simp [equal]
  | finite negative rank => simp [equal]

/-- Whether a value has a minus, which a zero may have as well. -/
def Binary64.isNegative : Binary64 → Bool
  | nan => false
  | infinite negative => negative
  | finite negative _ => negative

lemma Decimal.toBinary64_ne_nan (d : Decimal) : d.toBinary64 ≠ .nan := by
  unfold toBinary64 Binary64.zero Binary64.nearest
  split
  · simp
  · split
    · simp
    · dsimp only
      split <;> simp

/-- The sign of a decimal is kept, also on a zero and on an infinity. -/
lemma Decimal.isNegative_toBinary64 (d : Decimal) : d.toBinary64.isNegative = d.negative := by
  unfold toBinary64 Binary64.zero Binary64.nearest
  split
  · rfl
  · split
    · rfl
    · dsimp only
      split <;> rfl

lemma toLower_of_isDigit {c : Char} (h : c.isDigit = true) : c.toLower = c := by
  have hdigit := isDigit_iff.1 h
  refine dif_neg fun hupper => ?_
  have hle : 65 ≤ c.toNat := UInt32.le_iff_toNat_le.1 hupper.1
  omega

/-- What begins with a digit or a point behind its sign is read as a decimal, for it is none of the
words. -/
lemma Numeral.read?_of_splitSign {negative : Bool} {c : Char} {s t : List Char}
    (hsign : splitSign t = (negative, c :: s)) (h : c.isDigit = true ∨ c = '.') :
    read? t = (readDecimal? negative (c :: s)).map decimal := by
  have hlower : c.toLower = c := h.elim toLower_of_isDigit fun hpoint => by rw [hpoint]; rfl
  have hword : ∀ {d : Char} {word : List Char}, d.isDigit = false → d ≠ '.' →
      (c :: s).map Char.toLower ≠ d :: word := by
    intro d word hd hpoint heq
    rw [List.map_cons, hlower] at heq
    rw [(List.cons.inj heq).1, hd] at h
    exact h.elim (by decide) hpoint
  have hinfinite : ¬ ((c :: s).map Char.toLower = ['i', 'n', 'f'] ∨
      (c :: s).map Char.toLower = ['i', 'n', 'f', 'i', 'n', 'i', 't', 'y']) :=
    fun heq => heq.elim (hword (by decide) (by decide)) (hword (by decide) (by decide))
  unfold read?
  rw [hsign]
  dsimp only
  rw [if_neg (hword (by decide) (by decide)), if_neg hinfinite]

lemma Numeral.splitSign_of_head {s : List Char} (h : ∀ c ∈ s.head?, c ≠ '-' ∧ c ≠ '+') :
    splitSign s = (false, s) := by
  unfold splitSign
  split
  · exact absurd rfl (h '-' List.head?_cons).1
  · exact absurd rfl (h '+' List.head?_cons).2
  · rfl

lemma isDigit_ne_sign {c : Char} (h : c.isDigit = true) : c ≠ '-' ∧ c ≠ '+' := by
  constructor
  · rintro rfl
    exact absurd h (by decide)
  · rintro rfl
    exact absurd h (by decide)

lemma Numeral.read?_of_isDigit {c : Char} {s : List Char} (h : c.isDigit = true) :
    Numeral.read? (c :: s) = (readDecimal? false (c :: s)).map decimal :=
  read?_of_splitSign (splitSign_of_head (by simpa using isDigit_ne_sign h)) (.inl h)

lemma span_digits {digits rest : List Char} (hdigits : ∀ c ∈ digits, c.isDigit = true)
    (hrest : ∀ c ∈ rest.head?, c.isDigit = false) :
    (digits ++ rest).span Char.isDigit = (digits, rest) := by
  have hdrop : (digits ++ rest).dropWhile Char.isDigit = rest := by
    have happend := List.takeWhile_append_dropWhile (p := Char.isDigit) (l := digits ++ rest)
    rw [takeWhile_run hdigits hrest] at happend
    exact List.append_cancel_left happend
  rw [List.span_eq_takeWhile_dropWhile, takeWhile_run hdigits hrest, hdrop]

lemma Numeral.readDecimal?_isSome {negative : Bool} {text : List Char} (h : Lexeme .number text) :
    (readDecimal? negative text).isSome = true := by
  cases h with
  | whole hne hdigits =>
    have hspan : (text ++ []).span Char.isDigit = (text, []) := span_digits hdigits (by simp)
    rw [List.append_nil] at hspan
    rw [readDecimal?, hspan]
    simp [splitFraction, readExponent?, hne]
  | @fraction digits decimals hne hdigits _ hdecimals =>
    have hspan : (digits ++ '.' :: decimals).span Char.isDigit = (digits, '.' :: decimals) :=
      span_digits hdigits (by simp)
    have hsplit : splitFraction ('.' :: (decimals ++ [])) = (decimals, []) :=
      span_digits hdecimals (by simp)
    rw [List.append_nil] at hsplit
    rw [readDecimal?, hspan]
    simp only [hsplit]
    simp [readExponent?, hne]
  | fixed h => exact absurd h (by simp [Kind.lexeme?])

lemma Numeral.negative_of_readDecimal? {negative : Bool} {s : List Char} {d : Decimal}
    (h : readDecimal? negative s = some d) : d.negative = negative := by
  unfold readDecimal? at h
  dsimp only at h
  split at h
  · exact absurd h (by simp)
  · obtain ⟨exponent, -, rfl⟩ := Option.map_eq_some_iff.1 h
    rfl

/-- A lexeme of a number denotes a decimal without a minus. -/
lemma Numeral.read?_of_lexeme {text : List Char} (h : Lexeme .number text) :
    ∃ d : Decimal, d.negative = false ∧ read? text = some (.decimal d) := by
  have hsome : (readDecimal? false text).isSome = true := readDecimal?_isSome h
  obtain ⟨c, s, rfl, hcases⟩ := h.cases_head
  have hdigit : c.isDigit = true := by
    rcases hcases with ⟨hdigit, -⟩ | ⟨-, -, hword⟩ | ⟨-, hsymbol, -⟩
    · exact hdigit
    · exact absurd hword.symm (Kind.ofWord_ne_number _)
    · exact absurd hsymbol (by decide)
  obtain ⟨d, hd⟩ := Option.isSome_iff_exists.1 hsome
  exact ⟨d, negative_of_readDecimal? hd, by rw [read?_of_isDigit hdigit, hd]; rfl⟩

lemma numberValue?_of_lexeme {text : String} (h : Lexeme .number text.toList) :
    ∃ d : Decimal, d.negative = false ∧ numberValue? text = some d.toBinary64 := by
  obtain ⟨d, hsign, hd⟩ := Numeral.read?_of_lexeme h
  exact ⟨d, hsign, by rw [numberValue?, hd]; rfl⟩

section Values

variable {text : String} {value : Binary64} (h : Lexeme .number text.toList)
  (hvalue : numberValue? text = some value)
include h hvalue

lemma numberValue?_ne_nan : value ≠ .nan := by
  obtain ⟨d, -, hd⟩ := numberValue?_of_lexeme h
  rw [hd] at hvalue
  rw [← Option.some.inj hvalue]
  exact d.toBinary64_ne_nan

lemma numberValue?_not_isNegative : value.isNegative = false := by
  obtain ⟨d, hsign, hd⟩ := numberValue?_of_lexeme h
  rw [hd] at hvalue
  rw [← Option.some.inj hvalue, d.isNegative_toBinary64, hsign]

end Values

end ImpSyntax
