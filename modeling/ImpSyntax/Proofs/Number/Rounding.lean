import ImpSyntax.Number.Decimal
import ImpSyntax.Proofs.Number.Nearest
import Mathlib.Algebra.Order.Field.Power
import Mathlib.Tactic.Positivity

/-!
# Rounding a decimal

`Rounds` says which value a signed number is rounded to: infinity from the bound on, and below it
the finite value with the nearest magnitude, in each case with the sign of the number.  There is one
such value (`Rounds.unique`), and it does not get smaller where the number gets larger
(`Rounds.mono`).

A decimal is rounded in this way (`rounds_toBinary64`).  Where the scale settles the result without
arithmetic it is the same one, because `10 ^ 310` is past the bound and `10 ^ -330` below the middle
between zero and the smallest magnitude.
-/

namespace ImpSyntax

open Binary64

/-- A number with the given sign and magnitude is rounded to the value. -/
inductive Binary64.Rounds (negative : Bool) (x : ℚ) : Binary64 → Prop where
  | infinite (hlarge : overflowBound ≤ x) : Rounds negative x (.infinite negative)
  | finite (hsmall : x < overflowBound) (rank : Fin finiteRanks) (hnearest : IsNearest x rank) :
      Rounds negative x (.finite negative rank)

/-- Whether one value is at most another one as a number.  No NaN is, and no value is at most a
NaN. -/
def Binary64.le : Binary64 → Binary64 → Prop
  | nan, _ => False
  | _, nan => False
  | infinite negative, w => negative = true ∨ w = infinite false
  | finite _ _, infinite negative => negative = false
  | finite a r, finite b s => (if a then -value r else value r) ≤ if b then -value s else value s

/-- The magnitude that a decimal denotes. -/
def Decimal.magnitude (d : Decimal) : ℚ :=
  d.coefficient * 10 ^ d.scale

namespace Binary64

variable {negative : Bool} {x y : ℚ} {v w : Binary64}

lemma Rounds.unique (hv : Rounds negative x v) (hw : Rounds negative x w) : v = w := by
  cases hv with
  | infinite hlarge =>
    cases hw with
    | infinite => rfl
    | finite hsmall => exact absurd hlarge (not_le.2 hsmall)
  | finite hsmall rank hnearest =>
    cases hw with
    | infinite hlarge => exact absurd hlarge (not_le.2 hsmall)
    | finite _ other hother => rw [Fin.ext (hnearest.unique hother)]

/-- Of two numbers without a minus the larger one is not rounded to the smaller value. -/
lemma Rounds.mono (hv : Rounds false x v) (hw : Rounds false y w) (hle : x ≤ y) : v.le w := by
  cases hv with
  | infinite hlarge =>
    cases hw with
    | infinite => exact .inr rfl
    | finite hsmall => exact absurd (hlarge.trans hle) (not_le.2 hsmall)
  | finite hsmall rank hnearest =>
    cases hw with
    | infinite => rfl
    | finite _ other hother => exact value_strictMono.monotone (hnearest.rank_le hother hle)

/-- The nearest value of the format is the one that a quotient is rounded to. -/
lemma rounds_nearest (negative : Bool) (num : Nat) {den : Nat} (hden : den ≠ 0) :
    Rounds negative (num / den) (nearest negative num den) := by
  have hnearest := isNearest_nearestRank num hden
  unfold nearest
  dsimp only
  split
  case isTrue hlt => exact .finite (hnearest.lt_finiteRanks_iff.1 hlt) ⟨_, hlt⟩ hnearest
  case isFalse hge =>
    exact .infinite (not_lt.1 fun hsmall => hge (hnearest.lt_finiteRanks_iff.2 hsmall))

lemma rounds_zero (negative : Bool) (hnonneg : 0 ≤ x) (hlt : 2 * x < unit) :
    Rounds negative x (zero negative) := by
  have hvalues : value 0 = 0 ∧ value 1 = unit := by
    rw [value_of_le (Nat.zero_le _), value_of_le (Nat.one_le_two_pow)]
    simp
  have hnearest : IsNearest x 0 :=
    .of_lower (by rwa [hvalues.1]) (.inl (by rwa [hvalues.1, hvalues.2, zero_add]))
  exact .finite (hnearest.lt_finiteRanks_iff.1 (by decide)) _ hnearest

end Binary64

namespace Decimal

/-! ## Scales that settle the result -/

lemma overflowBound_le_of_isHuge {d : Decimal} (h : d.isHuge) : overflowBound ≤ d.magnitude := by
  obtain ⟨hne, hscale⟩ := h
  have hpowers : (2 : ℚ) ^ 1024 ≤ 10 ^ 310 := by
    exact_mod_cast (by decide +kernel : 2 ^ 1024 ≤ 10 ^ 310)
  have hone : (1 : ℚ) ≤ d.coefficient := by exact_mod_cast Nat.one_le_iff_ne_zero.2 hne
  calc overflowBound ≤ 2 ^ 1024 := sub_le_self _ (pow_pos two_pos _).le
    _ ≤ 10 ^ 310 := hpowers
    _ = 10 ^ (310 : ℤ) := (zpow_natCast _ _).symm
    _ ≤ 10 ^ d.scale := zpow_le_zpow_right₀ (by norm_num) hscale
    _ ≤ d.magnitude := le_mul_of_one_le_left (by positivity) hone

/-- A coefficient has no more decimal digits than binary ones. -/
lemma coefficient_le (d : Decimal) : (d.coefficient : ℚ) ≤ 10 ^ ((d.coefficient.log2 : ℤ) + 1) := by
  have hlt : d.coefficient < 2 ^ (d.coefficient.log2 + 1) := Nat.lt_log2_self
  have hpow : 2 ^ (d.coefficient.log2 + 1) ≤ 10 ^ (d.coefficient.log2 + 1) :=
    Nat.pow_le_pow_left (by decide) _
  have hle : (d.coefficient : ℚ) ≤ 10 ^ (d.coefficient.log2 + 1) := by
    exact_mod_cast hlt.le.trans hpow
  exact_mod_cast hle

lemma two_mul_magnitude_lt_of_isTiny {d : Decimal} (h : d.isTiny) : 2 * d.magnitude < unit := by
  rcases h with hzero | hscale
  · rw [magnitude, hzero]
    simpa using unit_pos
  · have hpowers : (2 : ℚ) * 2 ^ 1074 < 10 ^ 331 := by
      exact_mod_cast (by decide +kernel : 2 * 2 ^ 1074 < 10 ^ 331)
    have hten : (10 : ℚ) ≠ 0 := by norm_num
    have hsmall : d.magnitude ≤ 10 ^ (-331 : ℤ) := by
      calc d.magnitude
          ≤ 10 ^ ((d.coefficient.log2 : ℤ) + 1) * 10 ^ (-((d.coefficient.log2 : ℤ) + 332)) :=
            mul_le_mul d.coefficient_le (zpow_le_zpow_right₀ (by norm_num) (by omega))
              (by positivity) (by positivity)
        _ = 10 ^ (-331 : ℤ) := by
            rw [← zpow_add₀ hten]
            congr 1
            ring
    calc 2 * d.magnitude ≤ 2 * 10 ^ (-331 : ℤ) := mul_le_mul_of_nonneg_left hsmall zero_le_two
      _ < unit := by
          rw [unit, zpow_neg, zpow_neg, zpow_ofNat, zpow_ofNat, ← div_eq_mul_inv,
            div_lt_iff₀ (pow_pos (by norm_num) _), inv_mul_eq_div, lt_div_iff₀ (pow_pos two_pos _)]
          exact hpowers

lemma magnitude_eq_div (d : Decimal) :
    d.magnitude = d.numerator / d.denominator ∧ d.denominator ≠ 0 := by
  unfold magnitude numerator denominator
  simp only [Nat.pow_eq]
  refine ⟨?_, (Nat.pow_pos (by decide)).ne'⟩
  obtain ⟨n, hn | hn⟩ := d.scale.eq_nat_or_neg
  · rw [hn]
    simp
  · rw [hn]
    simp [div_eq_mul_inv]

/-- A decimal is rounded with its sign. -/
theorem rounds_toBinary64 (d : Decimal) : Rounds d.negative d.magnitude d.toBinary64 := by
  unfold toBinary64
  split
  case isTrue hhuge => exact .infinite (overflowBound_le_of_isHuge hhuge)
  case isFalse =>
    split
    case isTrue htiny =>
      exact rounds_zero d.negative (by unfold magnitude; positivity)
        (two_mul_magnitude_lt_of_isTiny htiny)
    case isFalse =>
      obtain ⟨hquotient, hne⟩ := d.magnitude_eq_div
      rw [hquotient]
      exact rounds_nearest d.negative d.numerator hne

end Decimal

end ImpSyntax
