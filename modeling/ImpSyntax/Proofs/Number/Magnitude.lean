import ImpSyntax.Number.Binary64
import Mathlib.Algebra.Order.Field.Basic
import Mathlib.Data.Rat.Cast.Order
import Mathlib.Order.Monotone.Basic
import Mathlib.Tactic.Ring

/-!
# The magnitudes of the format

A rank is made of the number of doublings and a significand, which has 53 bits and, unless nothing
is doubled, uses all of them (`exists_significand`).  The magnitude is the significand doubled so
often (`magnitude_eq`), also for the significand `2 ^ 53` that leads over into the next binade.
Therefore magnitudes increase with their ranks (`value_strictMono`).

The finite magnitudes are those of 53 bits with an exponent of the format (`exists_rank_iff`).  The
first `2 ^ 52` of them are the subnormal ones, which lie below `2 ^ -1022` and are the multiples of
the smallest one there (`subnormal_iff`).
-/

namespace ImpSyntax.Binary64

/-! ## Ranks and significands -/

/-- The rank of a significand that is doubled a number of times. -/
def rankOf (doublings significand : Nat) : Nat :=
  doublings * 2 ^ 52 + significand

lemma rankOf_succ (doublings significand : Nat) :
    rankOf doublings (significand + 1) = rankOf doublings significand + 1 :=
  (Nat.add_assoc _ _ _).symm

/-- Each rank has a significand that fills its binade. -/
lemma exists_significand (rank : Nat) : ∃ doublings significand,
    rank = rankOf doublings significand ∧ significand < 2 ^ 53 ∧
      (doublings = 0 ∨ 2 ^ 52 ≤ significand) := by
  rcases Nat.lt_or_ge rank (2 ^ 53) with hlt | hge
  · exact ⟨0, rank, by simp [rankOf], hlt, .inl rfl⟩
  · refine ⟨rank / 2 ^ 52 - 1, 2 ^ 52 + rank % 2 ^ 52, ?_, ?_, .inr (Nat.le_add_right _ _)⟩
    · rw [rankOf]
      omega
    · omega

/-- The magnitude of a rank is its significand, doubled as often as the rank says. -/
lemma magnitude_eq {doublings significand : Nat} (hle : significand ≤ 2 ^ 53)
    (hfull : doublings = 0 ∨ 2 ^ 52 ≤ significand) :
    magnitude (rankOf doublings significand) = significand * 2 ^ doublings := by
  have hrank : rankOf doublings significand = doublings * 2 ^ 52 + significand := rfl
  unfold magnitude
  simp only [Nat.pow_eq]
  rcases Nat.lt_or_ge (rankOf doublings significand) (2 ^ 53) with hlt | hge
  · have hnone : doublings = 0 := by omega
    rw [if_pos hlt, hrank, hnone]
    simp
  · rw [if_neg (Nat.not_lt.2 hge)]
    rcases Nat.lt_or_ge significand (2 ^ 53) with hsmall | hlarge
    · have hmod : 2 ^ 52 + rankOf doublings significand % 2 ^ 52 = significand := by omega
      have hdiv : rankOf doublings significand / 2 ^ 52 - 1 = doublings := by omega
      rw [hmod, hdiv]
    · -- the next binade has one doubling more and a significand of half the size
      have hmod : rankOf doublings significand % 2 ^ 52 = 0 := by omega
      have hdiv : rankOf doublings significand / 2 ^ 52 - 1 = doublings + 1 := by omega
      have hsize : significand = 2 ^ 53 := Nat.le_antisymm hle hlarge
      rw [hmod, hdiv, hsize, pow_succ 2 doublings]
      ring

lemma magnitude_lt_succ (rank : Nat) : magnitude rank < magnitude (rank + 1) := by
  obtain ⟨doublings, significand, rfl, hlt, hfull⟩ := exists_significand rank
  rw [← rankOf_succ, magnitude_eq hlt.le hfull,
    magnitude_eq (Nat.succ_le_of_lt hlt) (hfull.imp_right Nat.le_succ_of_le)]
  exact Nat.mul_lt_mul_of_pos_right (Nat.lt_succ_self _) (Nat.two_pow_pos _)

/-! ## Values -/

/-- The smallest magnitude but zero. -/
def unit : ℚ :=
  2 ^ (-1074 : ℤ)

lemma unit_pos : 0 < unit :=
  zpow_pos two_pos _

/-- The magnitude of a rank. -/
def value (rank : Nat) : ℚ :=
  magnitude rank * unit

lemma value_strictMono : StrictMono value := by
  refine strictMono_nat_of_lt_succ fun rank => ?_
  have hlt : (magnitude rank : ℚ) < magnitude (rank + 1) := by
    exact_mod_cast magnitude_lt_succ rank
  exact mul_lt_mul_of_pos_right hlt unit_pos

lemma pow_mul_unit (doublings : Nat) : 2 ^ doublings * unit = 2 ^ ((doublings : ℤ) - 1074) := by
  rw [unit, ← zpow_natCast, ← zpow_add₀ two_ne_zero, sub_eq_add_neg]

/-- The units that make up one. -/
lemma pow_mul_unit_eq_one : 2 ^ 1074 * unit = 1 := by
  rw [pow_mul_unit, Nat.cast_ofNat, sub_self, zpow_zero]

lemma value_rankOf {doublings significand : Nat} (hle : significand ≤ 2 ^ 53)
    (hfull : doublings = 0 ∨ 2 ^ 52 ≤ significand) :
    value (rankOf doublings significand) = significand * 2 ^ ((doublings : ℤ) - 1074) := by
  rw [value, magnitude_eq hle hfull, Nat.cast_mul, Nat.cast_pow, mul_assoc, Nat.cast_ofNat,
    pow_mul_unit]

/-! ## The finite magnitudes -/

lemma rankOf_lt_finiteRanks {doublings significand : Nat} (hlt : significand < 2 ^ 53)
    (hdoublings : doublings ≤ 2045) : rankOf doublings significand < finiteRanks := by
  unfold rankOf finiteRanks
  simp only [Nat.pow_eq]
  omega

/-- A significand of at most 53 bits can be shifted to the left until it uses all of them or until
nothing is doubled. -/
lemma exists_rank_of_significand {significand : Nat} (hlt : significand < 2 ^ 53) (doublings : Nat)
    (hdoublings : doublings ≤ 2045) : ∃ rank < finiteRanks,
      value rank = significand * 2 ^ ((doublings : ℤ) - 1074) := by
  induction doublings generalizing significand with
  | zero =>
    exact ⟨_, rankOf_lt_finiteRanks hlt hdoublings, value_rankOf hlt.le (.inl rfl)⟩
  | succ doublings ih =>
    rcases Nat.lt_or_ge significand (2 ^ 52) with hsmall | hfull
    · have hdouble : 2 * significand < 2 ^ 53 := by omega
      obtain ⟨rank, hrank, hvalue⟩ := ih hdouble (Nat.le_of_succ_le hdoublings)
      refine ⟨rank, hrank, hvalue.trans ?_⟩
      have hshift : ((doublings + 1 : ℕ) : ℤ) - 1074 = (doublings : ℤ) - 1074 + 1 := by
        push_cast
        ring
      rw [hshift, zpow_add_one₀ two_ne_zero]
      push_cast
      ring
    · exact ⟨_, rankOf_lt_finiteRanks hlt hdoublings, value_rankOf hlt.le (.inr hfull)⟩

/-- The finite magnitudes are the numbers of 53 bits with an exponent from -1074 to 971. -/
lemma exists_rank_iff {q : ℚ} : (∃ rank < finiteRanks, value rank = q) ↔
    ∃ significand : ℕ, significand < 2 ^ 53 ∧ ∃ doublings : ℕ, doublings ≤ 2045 ∧
      q = significand * 2 ^ ((doublings : ℤ) - 1074) := by
  constructor
  · rintro ⟨rank, hrank, rfl⟩
    obtain ⟨doublings, significand, rfl, hlt, hfull⟩ := exists_significand rank
    refine ⟨significand, hlt, doublings, ?_, value_rankOf hlt.le hfull⟩
    unfold rankOf finiteRanks at hrank
    simp only [Nat.pow_eq] at hrank
    omega
  · rintro ⟨significand, hlt, doublings, hdoublings, rfl⟩
    exact exists_rank_of_significand hlt doublings hdoublings

/-- The subnormal magnitudes are those below `2 ^ -1022`. -/
lemma subnormal_iff {rank : Nat} : rank < 2 ^ 52 ↔ value rank < 2 ^ (-1022 : ℤ) := by
  have hrank : 2 ^ 52 = rankOf 0 (2 ^ 52) := by decide
  have hborder : value (2 ^ 52) = 2 ^ (-1022 : ℤ) := by
    rw [hrank, value_rankOf (by decide) (.inl rfl), Nat.cast_pow, Nat.cast_ofNat, ← zpow_natCast,
      ← zpow_add₀ two_ne_zero]
    norm_num
  rw [← hborder, value_strictMono.lt_iff_lt]

/-- Up to the first one that is not subnormal the magnitudes are multiples of the smallest. -/
lemma value_of_le {rank : Nat} (hle : rank ≤ 2 ^ 53) : value rank = rank * unit := by
  have hrank : rank = rankOf 0 rank := by simp [rankOf]
  rw [value, hrank, magnitude_eq hle (.inl rfl)]
  simp [rankOf]

end ImpSyntax.Binary64
