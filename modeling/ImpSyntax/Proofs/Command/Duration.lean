import ImpSyntax.Command.Duration
import ImpSyntax.Proofs.Message
import ImpSyntax.Proofs.Number.Meaning
import Mathlib.Tactic.LinearCombination

/-!
# What the text of a duration says

A duration is written as a decimal and a unit.  The decimal is a numeral, and what it denotes is the
duration in that unit, with nothing rounded off (`Duration.denotes_decimal`) and no zero too many at
the end (`Duration.getLast?_fractionDigits`).  The unit is the text behind the last digit.  So no
two durations have the same text (`Duration.render_injective`).
-/

namespace ImpSyntax

namespace Duration

variable {places fraction : Nat}

/-! ## Digits behind the point -/

lemma fractionDigits_succ (places fraction : Nat) :
    fractionDigits (places + 1) fraction =
      if fraction = 0 then []
      else Nat.digitChar (fraction / 10 ^ places) ::
        fractionDigits places (fraction % 10 ^ places) :=
  rfl

lemma div_lt_ten (h : fraction < 10 ^ (places + 1)) : fraction / 10 ^ places < 10 :=
  Nat.div_lt_of_lt_mul (by rwa [← Nat.pow_succ])

lemma mod_lt_pow (fraction places : Nat) : fraction % 10 ^ places < 10 ^ places :=
  Nat.mod_lt _ (Nat.pow_pos (by decide))

lemma isDigit_of_mem_fractionDigits (h : fraction < 10 ^ places) :
    ∀ c ∈ fractionDigits places fraction, c.isDigit = true := by
  induction places generalizing fraction with
  | zero => simp [fractionDigits]
  | succ places ih =>
    rw [fractionDigits_succ]
    split
    · simp
    · rw [List.forall_mem_cons, Nat.isDigit_digitChar]
      exact ⟨decide_eq_true (div_lt_ten h), ih (mod_lt_pow fraction places)⟩

/-- The digits count as the fraction that they stand for, also without the zeros behind them. -/
lemma ofDigitChars_fractionDigits (h : fraction < 10 ^ places) :
    (Nat.ofDigitChars 10 (fractionDigits places fraction) 0 : ℚ) /
      10 ^ (fractionDigits places fraction).length = fraction / 10 ^ places := by
  induction places generalizing fraction with
  | zero =>
    obtain rfl : fraction = 0 := by simpa using h
    simp [fractionDigits]
  | succ places ih =>
    rw [fractionDigits_succ]
    split
    · rename_i hzero
      simp [hzero]
    · have hrest := ih (mod_lt_pow fraction places)
      have hsplit : (fraction : ℚ) =
          10 ^ places * (fraction / 10 ^ places : ℕ) + (fraction % 10 ^ places : ℕ) := by
        exact_mod_cast (Nat.div_add_mod fraction (10 ^ places)).symm
      have hdigit : (Nat.digitChar (fraction / 10 ^ places)).toNat - '0'.toNat =
          fraction / 10 ^ places := by
        rw [Nat.toNat_digitChar_of_lt_ten (div_lt_ten h)]
        exact Nat.add_sub_cancel_left 48 _
      rw [Nat.ofDigitChars_cons, Nat.ofDigitChars_eq_ofDigitChars_zero, hdigit, List.length_cons]
      rw [div_eq_div_iff (by positivity) (by positivity)] at hrest ⊢
      rw [hsplit]
      push_cast
      linear_combination 10 * hrest

lemma fractionDigits_eq_nil (h : fraction < 10 ^ places)
    (hnil : fractionDigits places fraction = []) : fraction = 0 := by
  cases places with
  | zero => simpa using h
  | succ places =>
    by_contra hne
    rw [fractionDigits_succ, if_neg hne] at hnil
    exact absurd hnil (List.cons_ne_nil _ _)

/-- No zero stands at the end. -/
lemma getLast?_fractionDigits (h : fraction < 10 ^ places) :
    (fractionDigits places fraction).getLast? ≠ some '0' := by
  induction places generalizing fraction with
  | zero => simp [fractionDigits]
  | succ places ih =>
    have hmod := mod_lt_pow fraction places
    rw [fractionDigits_succ]
    split
    · simp
    · rename_i hne
      rw [List.getLast?_cons]
      cases hlast : (fractionDigits places (fraction % 10 ^ places)).getLast? with
      | some c =>
        have hrest := ih hmod
        rw [hlast] at hrest
        exact hrest
      | none =>
        -- the digit is the last one, and it is all there is of the fraction
        have hrest := fractionDigits_eq_nil hmod (List.getLast?_eq_none_iff.1 hlast)
        have hdigit : fraction / 10 ^ places ≠ 0 := by
          intro hdiv
          have hsum := Nat.div_add_mod fraction (10 ^ places)
          rw [hdiv, hrest, Nat.mul_zero] at hsum
          exact hne hsum.symm
        exact fun hzero => hdigit (Nat.digitChar_eq_zero.1 (Option.some.inj hzero))

/-! ## Decimals with a unit -/

/-- There is a point just if there are digits behind it. -/
lemma decimal_eq (unit : TimeUnit) (duration : Nat) : ∃ point,
    decimal unit duration = Text.decimalDigits (duration / unit.nanoseconds) ++
      (point ++ fractionDigits unit.places (duration % unit.nanoseconds)) ∧
    (point = ['.'] ∨
      (point = [] ∧ fractionDigits unit.places (duration % unit.nanoseconds) = [])) := by
  by_cases hzero : duration % unit.nanoseconds = 0
  · have hnil : fractionDigits unit.places 0 = [] := by cases unit <;> rfl
    exact ⟨[], by simp [decimal, hzero, hnil], .inr ⟨rfl, by rw [hzero, hnil]⟩⟩
  · exact ⟨['.'], by simp [decimal, hzero], .inl rfl⟩

lemma cast_nanoseconds_ne_zero (unit : TimeUnit) : (unit.nanoseconds : ℚ) ≠ 0 :=
  Nat.cast_ne_zero.2 (Nat.pow_pos (by decide)).ne'

/-- The decimal denotes the duration in the unit. -/
theorem denotes_decimal (unit : TimeUnit) (duration : Nat) :
    Numeral.Denotes (decimal unit duration)
      (.number false ((duration : ℚ) / (unit.nanoseconds : ℚ))) := by
  have hne : Text.decimalDigits (duration / unit.nanoseconds) ≠ [] := Nat.toDigits_ne_nil
  have hmod : duration % unit.nanoseconds < 10 ^ unit.places := mod_lt_pow duration unit.places
  have hunit : (unit.nanoseconds : ℚ) = 10 ^ unit.places := Nat.cast_pow 10 unit.places
  have hpos := cast_nanoseconds_ne_zero unit
  have hvalue : Numeral.pointed (Text.decimalDigits (duration / unit.nanoseconds))
      (fractionDigits unit.places (duration % unit.nanoseconds)) =
        (duration : ℚ) / (unit.nanoseconds : ℚ) := by
    rw [Numeral.pointed, Text.decimalDigits, Nat.ofDigitChars_ten_toDigits,
      ofDigitChars_fractionDigits hmod, ← hunit, eq_div_iff hpos, add_mul, div_mul_cancel₀ _ hpos]
    exact_mod_cast Nat.div_add_mod' duration unit.nanoseconds
  obtain ⟨point, hdecimal, hpoint⟩ := decimal_eq unit duration
  have hdenotes := Numeral.Denotes.number .none (fun _ => Text.isDigit_of_mem_decimalDigits)
    hpoint (isDigit_of_mem_fractionDigits hmod) (.inl hne) .none
  rw [List.nil_append, List.append_nil, zpow_zero, mul_one, hvalue] at hdenotes
  rwa [hdecimal]

example : decimal .microsecond 1500 = "1.5".toList := by decide

/-! ## The unit behind the decimal -/

lemma isDigit_or_point_of_mem_decimal (unit : TimeUnit) (duration : Nat) :
    ∀ c ∈ decimal unit duration, (c.isDigit || c == '.') = true := by
  have hfraction : ∀ c ∈ fractionDigits unit.places (duration % unit.nanoseconds),
      c.isDigit = true :=
    isDigit_of_mem_fractionDigits (mod_lt_pow duration unit.places)
  obtain ⟨point, hdecimal, hpoint⟩ := decimal_eq unit duration
  intro c hc
  simp only [hdecimal, List.mem_append] at hc
  rcases hc with hc | hc | hc
  · simp [Text.isDigit_of_mem_decimalDigits hc]
  · rcases hpoint with rfl | ⟨rfl, -⟩
    · simp [List.mem_singleton.1 hc]
    · exact absurd hc List.not_mem_nil
  · simp [hfraction c hc]

/-- A unit is the text behind the digits and the point. -/
lemma eq_of_append_symbol {number other : List Char} {unit otherUnit : TimeUnit}
    (hnumber : ∀ c ∈ number, (c.isDigit || c == '.') = true)
    (hother : ∀ c ∈ other, (c.isDigit || c == '.') = true)
    (h : number ++ unit.symbol.toList = other ++ otherUnit.symbol.toList) :
    number = other ∧ unit = otherUnit := by
  have hsymbol : ∀ unit : TimeUnit,
      unit.symbol.toList.takeWhile (fun c => c.isDigit || c == '.') = [] := by
    intro unit
    cases unit <;> decide
  have htake := congrArg (List.takeWhile fun c => c.isDigit || c == '.') h
  rw [List.takeWhile_append_of_pos hnumber, List.takeWhile_append_of_pos hother, hsymbol, hsymbol,
    List.append_nil, List.append_nil] at htake
  subst htake
  refine ⟨rfl, ?_⟩
  have hrest := List.append_cancel_left h
  revert hrest
  cases unit <;> cases otherUnit <;> decide

/-- A duration is written on one line. -/
lemma oneLine_render (duration : Nat) : OneLine (render duration) := by
  have hdecimal : OneLine (String.ofList (decimal (.ofDuration duration) duration)) := by
    refine oneLine_ofList.2 fun hmem => ?_
    exact absurd (isDigit_or_point_of_mem_decimal _ _ _ hmem) (by decide)
  have hsymbol : ∀ unit : TimeUnit, OneLine unit.symbol := by
    intro unit
    cases unit <;> decide
  exact hdecimal.append (hsymbol _)

/-- No two durations have the same text. -/
theorem render_injective : Function.Injective render := by
  intro duration other h
  have htexts := congrArg String.toList h
  simp only [render, String.toList_append, String.toList_ofList] at htexts
  obtain ⟨hnumber, hunit⟩ := eq_of_append_symbol (isDigit_or_point_of_mem_decimal _ _)
    (isDigit_or_point_of_mem_decimal _ _) htexts
  rw [hunit] at hnumber
  have hdenotes := denotes_decimal (.ofDuration other) duration
  rw [hnumber] at hdenotes
  have hvalue := hdenotes.unique (denotes_decimal (.ofDuration other) other)
  rw [Meaning.number.injEq, div_left_inj' (cast_nanoseconds_ne_zero _)] at hvalue
  exact_mod_cast hvalue.2

end Duration

end ImpSyntax
