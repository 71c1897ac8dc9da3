import ImpSyntax.Proofs.Number.Literal
import ImpSyntax.Proofs.Number.Rounding

/-!
# What numerals denote

The grammar of numerals is stated here by itself, with what each numeral denotes: a sign, and then
a word for no number or for an infinity, or digits with at most one point among them and possibly an
exponent (`Denotes`).  The digits are valued by the positional system, those behind the point as a
fraction of one.

`Numeral.read?` reads just the texts of this grammar, each as what it denotes
(`denotes_iff_read?`).  Each part of a numeral is read as far as it goes, because no part can begin
with what may be at the end of the one before it.
-/

namespace ImpSyntax

/-- What a numeral denotes. -/
inductive Meaning where
  /-- No number. -/
  | nan
  /-- An infinity with its sign. -/
  | infinite (negative : Bool)
  /-- A rational, by its sign and its magnitude. -/
  | number (negative : Bool) (magnitude : ℚ)

namespace Numeral

/-! ## The grammar -/

/-- A sign, or none, and whether it is a minus. -/
inductive Sign : List Char → Bool → Prop where
  | none : Sign [] false
  | plus : Sign ['+'] false
  | minus : Sign ['-'] true

/-- An exponent, or none, and its value. -/
inductive Exponent : List Char → ℤ → Prop where
  | none : Exponent [] 0
  | some {mark : Char} {sign digits : List Char} {negative : Bool} (hmark : mark = 'e' ∨ mark = 'E')
      (hsign : Sign sign negative) (hne : digits ≠ []) (hdigits : ∀ c ∈ digits, c.isDigit = true) :
      Exponent (mark :: (sign ++ digits))
        (if negative then -(Nat.ofDigitChars 10 digits 0 : ℤ) else Nat.ofDigitChars 10 digits 0)

/-- The number written by digits before and behind a point. -/
def pointed (whole fraction : List Char) : ℚ :=
  Nat.ofDigitChars 10 whole 0 + Nat.ofDigitChars 10 fraction 0 / 10 ^ fraction.length

/-- A whole text, and what it denotes as a numeral. -/
inductive Denotes : List Char → Meaning → Prop where
  | nan {sign word : List Char} {negative : Bool} (hsign : Sign sign negative)
      (hword : word.map Char.toLower = ['n', 'a', 'n']) : Denotes (sign ++ word) .nan
  | infinite {sign word : List Char} {negative : Bool} (hsign : Sign sign negative)
      (hword : word.map Char.toLower = ['i', 'n', 'f'] ∨
        word.map Char.toLower = ['i', 'n', 'f', 'i', 'n', 'i', 't', 'y']) :
      Denotes (sign ++ word) (.infinite negative)
  | number {sign whole point fraction exponent : List Char} {negative : Bool} {power : ℤ}
      (hsign : Sign sign negative) (hwhole : ∀ c ∈ whole, c.isDigit = true)
      (hpoint : point = ['.'] ∨ (point = [] ∧ fraction = []))
      (hfraction : ∀ c ∈ fraction, c.isDigit = true) (hne : whole ≠ [] ∨ fraction ≠ [])
      (hexponent : Exponent exponent power) :
      Denotes (sign ++ (whole ++ (point ++ (fraction ++ exponent))))
        (.number negative (pointed whole fraction * 10 ^ power))

/-- What a numeral that has been read denotes. -/
def meaning : Numeral → Meaning
  | nan => .nan
  | infinite negative => .infinite negative
  | decimal d => .number d.negative d.magnitude

variable {s sign body digits whole fraction exponent : List Char} {negative : Bool}
  {power : ℤ} {meaning : Meaning}

/-! ## Signs -/

lemma exists_sign (s : List Char) :
    ∃ sign, Sign sign (splitSign s).1 ∧ s = sign ++ (splitSign s).2 := by
  unfold splitSign
  split
  · exact ⟨['-'], .minus, rfl⟩
  · exact ⟨['+'], .plus, rfl⟩
  · exact ⟨[], .none, rfl⟩

/-- A sign is split off, unless another one follows. -/
lemma splitSign_append (hsign : Sign sign negative) (hbody : ∀ c ∈ body.head?, c ≠ '-' ∧ c ≠ '+') :
    splitSign (sign ++ body) = (negative, body) := by
  cases hsign with
  | plus | minus => rfl
  | none => exact splitSign_of_head hbody

/-! ## Exponents -/

lemma digitsValue_eq (digits : List Char) : digitsValue digits = Nat.ofDigitChars 10 digits 0 :=
  rfl

lemma readExponent?_cons (mark : Char) (s : List Char) : readExponent? (mark :: s) =
    if (mark = 'e' ∨ mark = 'E') ∧ (splitSign s).2 ≠ [] ∧ (splitSign s).2.all Char.isDigit then
      some (if (splitSign s).1 then -(digitsValue (splitSign s).2 : Int)
        else digitsValue (splitSign s).2)
    else none :=
  rfl

lemma exponent_of_readExponent? (h : readExponent? s = some power) : Exponent s power := by
  cases s with
  | nil =>
    obtain rfl : 0 = power := Option.some.inj h
    exact .none
  | cons mark s =>
    rw [readExponent?_cons] at h
    obtain ⟨⟨hmark, hne, hdigits⟩, hpower⟩ := Option.ite_none_right_eq_some.1 h
    obtain ⟨sign, hsign, hs⟩ := exists_sign s
    rw [hs, ← Option.some.inj hpower]
    exact .some hmark hsign hne (List.all_eq_true.1 hdigits)

lemma head_of_digits (hdigits : ∀ c ∈ digits, c.isDigit = true) :
    ∀ c ∈ digits.head?, c ≠ '-' ∧ c ≠ '+' := fun c hc =>
  isDigit_ne_sign (hdigits c (List.mem_of_mem_head? hc))

lemma readExponent?_of_exponent (h : Exponent s power) : readExponent? s = some power := by
  cases h with
  | none => rfl
  | some hmark hsign hne hdigits =>
    rw [readExponent?_cons, splitSign_append hsign (head_of_digits hdigits)]
    exact if_pos ⟨hmark, hne, List.all_eq_true.2 hdigits⟩

/-- An exponent begins with a letter. -/
lemma Exponent.head (h : Exponent exponent power) :
    ∀ c ∈ exponent.head?, c.isDigit = false ∧ c ≠ '.' := by
  cases h with
  | none => simp
  | @some mark _ _ _ hmark =>
    intro c hc
    obtain rfl : mark = c := Option.some.inj hc
    rcases hmark with rfl | rfl
    · decide
    · decide

/-! ## Digits and points -/

section Parts

variable {point : List Char} (hpoint : point = ['.'] ∨ (point = [] ∧ fraction = []))
  (hexponent : Exponent exponent power)
include hpoint hexponent

/-- No digit follows the digits before the point. -/
lemma head_of_point : ∀ c ∈ (point ++ (fraction ++ exponent)).head?, c.isDigit = false := by
  rcases hpoint with rfl | ⟨rfl, rfl⟩
  · simp
  · exact fun c hc => (hexponent.head c hc).1

lemma splitFraction_append (hfraction : ∀ c ∈ fraction, c.isDigit = true) :
    splitFraction (point ++ (fraction ++ exponent)) = (fraction, exponent) := by
  rcases hpoint with rfl | ⟨rfl, rfl⟩
  · exact span_digits hfraction fun c hc => (hexponent.head c hc).1
  · rw [List.nil_append, List.nil_append]
    unfold splitFraction
    split
    · exact absurd rfl (hexponent.head '.' List.head?_cons).2
    · rfl

/-- A decimal is read up to its end. -/
lemma readDecimal?_append (negative : Bool) (hwhole : ∀ c ∈ whole, c.isDigit = true)
    (hfraction : ∀ c ∈ fraction, c.isDigit = true) (hne : whole ≠ [] ∨ fraction ≠ []) :
    readDecimal? negative (whole ++ (point ++ (fraction ++ exponent))) =
      some ⟨negative, digitsValue (whole ++ fraction), power - fraction.length⟩ := by
  rw [readDecimal?, span_digits hwhole (head_of_point hpoint hexponent)]
  simp only [splitFraction_append hpoint hexponent hfraction, readExponent?_of_exponent hexponent]
  exact if_neg fun hboth => hne.elim (absurd hboth.1) (absurd hboth.2)

end Parts

lemma exists_point (s : List Char) : ∃ point,
    s = point ++ ((splitFraction s).1 ++ (splitFraction s).2) ∧
      (point = ['.'] ∨ (point = [] ∧ (splitFraction s).1 = [])) ∧
      ∀ c ∈ (splitFraction s).1, c.isDigit = true := by
  unfold splitFraction
  split
  · rename_i s
    rw [List.span_eq_takeWhile_dropWhile]
    exact ⟨['.'], by simp, .inl rfl, fun c hc => List.mem_takeWhile_imp hc⟩
  · exact ⟨[], rfl, .inr ⟨rfl, rfl⟩, by simp⟩

lemma readDecimal?_eq (negative : Bool) (s : List Char) : readDecimal? negative s =
    if s.takeWhile Char.isDigit = [] ∧ (splitFraction (s.dropWhile Char.isDigit)).1 = [] then none
    else (readExponent? (splitFraction (s.dropWhile Char.isDigit)).2).map fun exponent =>
      ⟨negative,
        digitsValue (s.takeWhile Char.isDigit ++ (splitFraction (s.dropWhile Char.isDigit)).1),
        exponent - (splitFraction (s.dropWhile Char.isDigit)).1.length⟩ := by
  rw [readDecimal?, List.span_eq_takeWhile_dropWhile]

/-- The digits behind the point count as a fraction of one. -/
lemma magnitude_eq_pointed (negative : Bool) (whole fraction : List Char) (power : ℤ) :
    Decimal.magnitude ⟨negative, digitsValue (whole ++ fraction), power - fraction.length⟩ =
      pointed whole fraction * 10 ^ power := by
  have hten : (10 : ℚ) ≠ 0 := by norm_num
  have hvalue : digitsValue (whole ++ fraction) =
      10 ^ fraction.length * Nat.ofDigitChars 10 whole 0 + Nat.ofDigitChars 10 fraction 0 := by
    rw [digitsValue_eq, Nat.ofDigitChars_append, Nat.ofDigitChars_eq_ofDigitChars_zero]
  rw [Decimal.magnitude, hvalue, pointed, zpow_sub₀ hten, zpow_natCast]
  push_cast
  field_simp

/-- What is read as a decimal is a number of the grammar. -/
lemma denotes_of_readDecimal? {d : Decimal} (hsign : Sign sign negative)
    (h : readDecimal? negative s = some d) :
    Denotes (sign ++ s) (.number d.negative d.magnitude) := by
  rw [readDecimal?_eq] at h
  obtain ⟨hne, hread⟩ := Option.ite_none_left_eq_some.1 h
  obtain ⟨power, hexponent, rfl⟩ := Option.map_eq_some_iff.1 hread
  obtain ⟨point, hrest, hpoint, hfraction⟩ := exists_point (s.dropWhile Char.isDigit)
  have hdenotes := Denotes.number hsign (fun c hc => List.mem_takeWhile_imp (l := s) hc) hpoint
    hfraction (not_and_or.1 hne) (exponent_of_readExponent? hexponent)
  rw [← hrest, List.takeWhile_append_dropWhile] at hdenotes
  rwa [magnitude_eq_pointed]

/-! ## Reading numerals -/

lemma read?_eq (s : List Char) : read? s =
    if (splitSign s).2.map Char.toLower = ['n', 'a', 'n'] then some nan
    else if (splitSign s).2.map Char.toLower = ['i', 'n', 'f'] ∨
        (splitSign s).2.map Char.toLower = ['i', 'n', 'f', 'i', 'n', 'i', 't', 'y'] then
      some (infinite (splitSign s).1)
    else (readDecimal? (splitSign s).1 (splitSign s).2).map decimal :=
  rfl

lemma denotes_of_read? {n : Numeral} (h : read? s = some n) : Denotes s n.meaning := by
  obtain ⟨sign, hsign, hs⟩ := exists_sign s
  rw [read?_eq] at h
  generalize splitSign s = found at h hsign hs
  subst hs
  split at h
  case isTrue hword =>
    obtain rfl := Option.some.inj h
    exact .nan hsign hword
  case isFalse =>
    split at h
    case isTrue hword =>
      obtain rfl := Option.some.inj h
      exact .infinite hsign hword
    case isFalse =>
      obtain ⟨d, hread, rfl⟩ := Option.map_eq_some_iff.1 h
      exact denotes_of_readDecimal? hsign hread

/-- What is a word up to the case of its letters begins with a letter. -/
lemma head_of_word {c : Char} {word rest : List Char} (hc : c ≠ '-' ∧ c ≠ '+')
    (hword : word.map Char.toLower = c :: rest) : ∀ d ∈ word.head?, d ≠ '-' ∧ d ≠ '+' := by
  obtain ⟨d, more, rfl, rfl, -⟩ := List.map_eq_cons_iff.1 hword
  intro e he
  obtain rfl : d = e := Option.some.inj he
  constructor
  · rintro rfl
    exact hc.1 rfl
  · rintro rfl
    exact hc.2 rfl

lemma exists_head_of_number (exponent : List Char) {point : List Char}
    (hpoint : point = ['.'] ∨ (point = [] ∧ fraction = []))
    (hwhole : ∀ c ∈ whole, c.isDigit = true) (hne : whole ≠ [] ∨ fraction ≠ []) :
    ∃ c rest, whole ++ (point ++ (fraction ++ exponent)) = c :: rest ∧
      (c.isDigit = true ∨ c = '.') := by
  cases whole with
  | cons c whole => exact ⟨c, _, rfl, .inl (hwhole c List.mem_cons_self)⟩
  | nil =>
    rcases hpoint with rfl | ⟨-, rfl⟩
    · exact ⟨'.', _, rfl, .inr rfl⟩
    · exact absurd rfl (hne.resolve_left fun hnil => hnil rfl)

lemma read?_of_denotes (h : Denotes s meaning) :
    ∃ n, read? s = some n ∧ n.meaning = meaning := by
  cases h with
  | nan hsign hword =>
    refine ⟨nan, ?_, rfl⟩
    rw [read?_eq, splitSign_append hsign (head_of_word (by decide) hword)]
    exact if_pos hword
  | @infinite sign word negative hsign hword =>
    have hhead : ∀ d ∈ word.head?, d ≠ '-' ∧ d ≠ '+' :=
      hword.elim (head_of_word (by decide)) (head_of_word (by decide))
    have hnot : word.map Char.toLower ≠ ['n', 'a', 'n'] := by
      rcases hword with hword | hword
      · rw [hword]
        decide
      · rw [hword]
        decide
    refine ⟨infinite negative, ?_, rfl⟩
    rw [read?_eq, splitSign_append hsign hhead]
    exact (if_neg hnot).trans (if_pos hword)
  | @number sign whole point fraction exponent negative power hsign hwhole hpoint hfraction hne
      hexponent =>
    refine ⟨decimal ⟨negative, digitsValue (whole ++ fraction), power - fraction.length⟩, ?_, ?_⟩
    · obtain ⟨c, rest, hbody, hc⟩ := exists_head_of_number exponent hpoint hwhole hne
      have hhead : ∀ d ∈ (c :: rest).head?, d ≠ '-' ∧ d ≠ '+' := by
        simpa using hc.elim isDigit_ne_sign fun hpoint => by rw [hpoint]; decide
      have hread := readDecimal?_append hpoint hexponent negative hwhole hfraction hne
      rw [hbody] at hread ⊢
      rw [read?_of_splitSign (splitSign_append hsign hhead) hc, hread]
      rfl
    · rw [← magnitude_eq_pointed negative]
      rfl

/-- A text is read as a numeral just if it is one, and as what it denotes. -/
theorem denotes_iff_read? :
    Denotes s meaning ↔ ∃ n, read? s = some n ∧ n.meaning = meaning := by
  refine ⟨read?_of_denotes, ?_⟩
  rintro ⟨n, hread, rfl⟩
  exact denotes_of_read? hread

/-- A text denotes one thing at most. -/
lemma Denotes.unique {other : Meaning} (h : Denotes s meaning) (hother : Denotes s other) :
    meaning = other := by
  obtain ⟨n, hread, rfl⟩ := denotes_iff_read?.1 h
  obtain ⟨m, hreadOther, rfl⟩ := denotes_iff_read?.1 hother
  rw [Option.some.inj (hread.symm.trans hreadOther)]

end Numeral

end ImpSyntax
