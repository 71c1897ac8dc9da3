import ImpSyntax.Number.Rounding
import ImpSyntax.Proofs.Number.Magnitude
import Mathlib.Algebra.Order.Ring.Abs
import Mathlib.Tactic.FieldSimp
import Mathlib.Tactic.Linarith

/-!
# The nearest magnitude

`IsNearest` says which rank a rational is to be rounded to, without saying how it is found: no
other magnitude is nearer, and where another one is equally near the rank is even, as its
significand is then (`even_rankOf`).  The ranks are continued upwards without end, so the rank may
turn out to be past the finite ones.

Two ranks on the same side of the middle between magnitudes cannot both be nearest, so a larger
rational is rounded to a rank that is not smaller (`IsNearest.rank_le`), and there is one such rank
at most.  It is past the finite ones just if the rational is in the upper half of the last gap
(`IsNearest.lt_finiteRanks_iff`).

A rational between two neighbours is rounded to one of them, which the middle decides.  For a
quotient they are found by a division with remainder, in the binade that its whole part lies in
(`isNearest_nearestRank`).
-/

namespace ImpSyntax.Binary64

/-- The rank is the nearest one to a rational, or it is even and one of the two nearest. -/
structure IsNearest (x : ℚ) (rank : Nat) : Prop where
  near : ∀ other, |x - value rank| ≤ |x - value other|
  even : ∀ other ≠ rank, |x - value rank| = |x - value other| → Even rank

variable {x y : ℚ} {rank other : Nat}

/-! ## Middles -/

section Middles

variable {a b : ℚ} (hlt : a < b)
include hlt

/-- The lower of two numbers is the nearer one up to the middle between them. -/
lemma abs_sub_lower_le_iff : |x - a| ≤ |x - b| ↔ 2 * x ≤ a + b := by
  have hfactor : (x - b) ^ 2 - (x - a) ^ 2 = (b - a) * (a + b - 2 * x) := by ring
  rw [← sq_le_sq, ← sub_nonneg, hfactor, mul_nonneg_iff_of_pos_left (sub_pos.2 hlt), sub_nonneg]

/-- The upper of two numbers is the nearer one from the middle between them on. -/
lemma abs_sub_upper_le_iff : |x - b| ≤ |x - a| ↔ a + b ≤ 2 * x := by
  have hfactor : (x - a) ^ 2 - (x - b) ^ 2 = (b - a) * (2 * x - (a + b)) := by ring
  rw [← sq_le_sq, ← sub_nonneg, hfactor, mul_nonneg_iff_of_pos_left (sub_pos.2 hlt), sub_nonneg]

lemma abs_sub_eq_iff : |x - a| = |x - b| ↔ 2 * x = a + b := by
  rw [le_antisymm_iff, le_antisymm_iff, abs_sub_lower_le_iff hlt, abs_sub_upper_le_iff hlt]

end Middles

/-! ## What it is to be nearest -/

namespace IsNearest

lemma le_middle (h : IsNearest x rank) (hlt : rank < other) :
    2 * x ≤ value rank + value other ∧ (2 * x = value rank + value other → Even rank) := by
  have hvalue := value_strictMono hlt
  exact ⟨(abs_sub_lower_le_iff hvalue).1 (h.near other),
    fun heq => h.even other hlt.ne' ((abs_sub_eq_iff hvalue).2 heq)⟩

lemma middle_le (h : IsNearest x rank) (hlt : other < rank) :
    value other + value rank ≤ 2 * x ∧ (2 * x = value other + value rank → Even rank) := by
  have hvalue := value_strictMono hlt
  exact ⟨(abs_sub_upper_le_iff hvalue).1 (h.near other),
    fun heq => h.even other hlt.ne ((abs_sub_eq_iff hvalue).2 heq).symm⟩

/-- A larger number is not rounded to a smaller rank. -/
lemma rank_le (hx : IsNearest x rank) (hy : IsNearest y other) (hle : x ≤ y) : rank ≤ other := by
  by_contra hnot
  have hlt : other < rank := not_le.1 hnot
  obtain ⟨hlow, hevenRank⟩ := hx.middle_le hlt
  obtain ⟨hhigh, hevenOther⟩ := hy.le_middle hlt
  -- both are the middle between the two, and there is an odd rank nearer to it
  have hmiddle : 2 * x = value other + value rank := by linarith
  obtain ⟨m, hm⟩ := hevenRank hmiddle
  obtain ⟨n, hn⟩ := hevenOther (by linarith)
  have hbetween : other + 1 < rank := by omega
  have hnearer := (hx.middle_le hbetween).1
  have hgreater : value other < value (other + 1) := value_strictMono (Nat.lt_succ_self other)
  linarith

lemma unique (h : IsNearest x rank) (hother : IsNearest x other) : rank = other :=
  Nat.le_antisymm (h.rank_le hother le_rfl) (hother.rank_le h le_rfl)

lemma of_forall_ne (h : ∀ other ≠ rank, |x - value rank| ≤ |x - value other| ∧
    (|x - value rank| = |x - value other| → Even rank)) : IsNearest x rank := by
  refine ⟨fun other => ?_, fun other hne => (h other hne).2⟩
  by_cases hne : other = rank
  · rw [hne]
  · exact (h other hne).1

/-- From the lower of two neighbours up to the middle, the lower one is nearest. -/
lemma of_lower (hlower : value rank ≤ x) (h : 2 * x < value rank + value (rank + 1) ∨
    (2 * x = value rank + value (rank + 1) ∧ Even rank)) : IsNearest x rank := by
  have hmiddle : 2 * x ≤ value rank + value (rank + 1) := h.elim le_of_lt fun heq => heq.1.le
  refine of_forall_ne fun other hne => ?_
  rcases Nat.lt_or_gt_of_ne hne with hlt | hgt
  · have hvalue := value_strictMono hlt
    rw [abs_sub_upper_le_iff hvalue, eq_comm, abs_sub_eq_iff hvalue]
    exact ⟨by linarith, fun heq => by linarith⟩
  · have hvalue := value_strictMono hgt
    have hnext : value (rank + 1) ≤ value other := value_strictMono.monotone hgt
    rw [abs_sub_lower_le_iff hvalue, abs_sub_eq_iff hvalue]
    exact ⟨by linarith, fun heq => (h.resolve_left (by linarith)).2⟩

/-- From the middle up to the upper of two neighbours, the upper one is nearest. -/
lemma of_upper (hupper : x ≤ value (rank + 1)) (h : value rank + value (rank + 1) < 2 * x ∨
    (2 * x = value rank + value (rank + 1) ∧ Even (rank + 1))) : IsNearest x (rank + 1) := by
  have hmiddle : value rank + value (rank + 1) ≤ 2 * x := h.elim le_of_lt fun heq => heq.1.ge
  refine of_forall_ne fun other hne => ?_
  rcases Nat.lt_or_gt_of_ne hne with hlt | hgt
  · have hvalue := value_strictMono hlt
    have hprevious : value other ≤ value rank := value_strictMono.monotone (Nat.le_of_lt_succ hlt)
    rw [abs_sub_upper_le_iff hvalue, eq_comm, abs_sub_eq_iff hvalue]
    exact ⟨by linarith, fun heq => (h.resolve_left (by linarith)).2⟩
  · have hvalue := value_strictMono hgt
    rw [abs_sub_lower_le_iff hvalue, abs_sub_eq_iff hvalue]
    exact ⟨by linarith, fun heq => by linarith⟩

end IsNearest

/-! ## Past the finite magnitudes -/

/-- From here on a number is rounded to infinity: the middle between the last finite magnitude and
the one that would follow it. -/
def overflowBound : ℚ :=
  2 ^ 1024 - 2 ^ 970

/-- The rank of the last finite magnitude. -/
def lastRank : Nat :=
  rankOf 2045 (2 ^ 53 - 1)

lemma lastRank_succ : lastRank + 1 = finiteRanks := by
  decide +kernel

lemma not_even_lastRank : ¬ Even lastRank := by
  decide +kernel

/-- The last gap is the one around the bound. -/
lemma value_lastRank_add : value lastRank + value finiteRanks = 2 * overflowBound := by
  have hnext : finiteRanks = rankOf 2045 (2 ^ 53) := by decide +kernel
  have hsignificand : ((2 ^ 53 - 1 : ℕ) : ℚ) = 2 ^ 53 - 1 := by norm_num
  have hexponent : ((2045 : ℕ) : ℤ) - 1074 = 971 := rfl
  have hlarge : (2 : ℚ) ^ 53 * 2 ^ (971 : ℤ) = 2 ^ 1024 := by
    rw [← zpow_natCast, ← zpow_natCast, ← zpow_add₀ two_ne_zero]
    rfl
  have hsmall : (2 : ℚ) ^ (971 : ℤ) = 2 * 2 ^ 970 := by
    rw [← pow_succ', ← zpow_natCast]
    rfl
  rw [hnext, lastRank, value_rankOf (Nat.sub_le _ _) (.inr (by decide)),
    value_rankOf le_rfl (.inr (by decide)), hsignificand, hexponent, Nat.cast_pow, Nat.cast_ofNat,
    sub_mul, hlarge, one_mul, hsmall, overflowBound]
  generalize (2 : ℚ) ^ 1024 = large
  generalize (2 : ℚ) ^ 970 = small
  ring

/-- A number is rounded to a finite magnitude just if it is below the bound.  At the bound itself
the rank past the last one counts as the even one. -/
lemma IsNearest.lt_finiteRanks_iff (h : IsNearest x rank) :
    rank < finiteRanks ↔ x < overflowBound := by
  have hsum := value_lastRank_add
  constructor
  · intro hlt
    have hle : rank ≤ lastRank := by
      rw [← lastRank_succ] at hlt
      exact Nat.le_of_lt_succ hlt
    have hvalue : value rank ≤ value lastRank := value_strictMono.monotone hle
    obtain ⟨hmiddle, heven⟩ := h.le_middle hlt
    by_contra hnot
    have hbound : overflowBound ≤ x := not_lt.1 hnot
    have hlast : rank = lastRank := value_strictMono.injective (by linarith)
    rw [hlast] at heven
    exact not_even_lastRank (heven (by linarith))
  · intro hlt
    by_contra hnot
    have hle : finiteRanks ≤ rank := not_lt.1 hnot
    have hvalue : value finiteRanks ≤ value rank := value_strictMono.monotone hle
    have hmiddle := (h.middle_le (lt_of_lt_of_le (Nat.lt_of_succ_le lastRank_succ.le) hle)).1
    linarith

/-! ## Quotients -/

/-- The whole part of a quotient in units of its binade is a significand of that binade. -/
lemma significand_bounds (units : Nat) : units / 2 ^ binade units < 2 ^ 53 ∧
    (binade units = 0 ∨ 2 ^ 52 ≤ units / 2 ^ binade units) := by
  have hupper : units < 2 ^ (units.log2 + 1) := Nat.lt_log2_self
  have hpow : 2 ^ (units.log2 + 1) ≤ 2 ^ 53 * 2 ^ binade units := by
    rw [← Nat.pow_add]
    exact Nat.pow_le_pow_right (by decide) (by unfold binade; omega)
  refine ⟨(Nat.div_lt_iff_lt_mul (Nat.two_pow_pos _)).2 (lt_of_lt_of_le hupper hpow), ?_⟩
  rcases Nat.eq_zero_or_pos (binade units) with hzero | hpos
  · exact .inl hzero
  · have hlog : units.log2 = 52 + binade units := by
      unfold binade at hpos ⊢
      omega
    have hne : units ≠ 0 := by
      rintro rfl
      exact absurd hpos (by simp [binade, Nat.log2_zero])
    refine .inr ((Nat.le_div_iff_mul_le (Nat.two_pow_pos _)).2 ?_)
    rw [← Nat.pow_add, ← hlog]
    exact Nat.log2_self_le hne

lemma even_rankOf (doublings significand : Nat) :
    Even (rankOf doublings significand) ↔ Even significand := by
  have hblock : Even (doublings * 2 ^ 52) := Even.mul_left (by decide) _
  rw [rankOf, Nat.even_add]
  exact iff_true_left hblock

section Remainders

variable {doublings significand rest size : Nat} (hlt : significand < 2 ^ 53)
  (hfull : doublings = 0 ∨ 2 ^ 52 ≤ significand) (hrest : rest < size)
  (hx : x = (significand + rest / size) * 2 ^ ((doublings : ℤ) - 1074))
include hlt hfull hrest hx

/-- A number that is given in units of a binade, as a significand and a remainder, is between two
neighbours.  It is on that side of their middle that the remainder is on of a half. -/
lemma between_neighbours :
    value (rankOf doublings significand) ≤ x ∧ x ≤ value (rankOf doublings significand + 1) ∧
      ∃ part, 0 < part ∧ 2 * x - (value (rankOf doublings significand) +
        value (rankOf doublings significand + 1)) = (2 * rest - size) * part := by
  have hlower := value_rankOf hlt.le hfull
  have hupper := value_rankOf (Nat.succ_le_of_lt hlt) (hfull.imp_right Nat.le_succ_of_le)
  rw [rankOf_succ, Nat.cast_succ] at hupper
  have hspacing : (0 : ℚ) < 2 ^ ((doublings : ℤ) - 1074) := zpow_pos two_pos _
  generalize (2 : ℚ) ^ ((doublings : ℤ) - 1074) = spacing at hx hlower hupper hspacing
  have hrest' : (rest : ℚ) < size := by exact_mod_cast hrest
  have hsize : (0 : ℚ) < size := lt_of_le_of_lt (Nat.cast_nonneg rest) hrest'
  have hpart : 0 < spacing / size := div_pos hspacing hsize
  have hbelow : x - value (rankOf doublings significand) = rest * (spacing / size) := by
    rw [hx, hlower]
    field_simp
    ring
  have habove : value (rankOf doublings significand + 1) - x =
      (size - rest) * (spacing / size) := by
    rw [hx, hupper]
    field_simp
    ring
  refine ⟨?_, ?_, spacing / size, hpart, by linarith⟩
  · rw [← sub_nonneg, hbelow]
    exact mul_nonneg (Nat.cast_nonneg rest) hpart.le
  · rw [← sub_nonneg, habove]
    exact mul_nonneg (sub_nonneg.2 hrest'.le) hpart.le

/-- Rounding the significand up if the remainder is more than a half, or a half behind an odd
significand, gives the nearest rank. -/
lemma isNearest_rankOf :
    IsNearest x (rankOf doublings (if size < 2 * rest ∨ (2 * rest = size ∧ significand % 2 = 1)
      then significand + 1 else significand)) := by
  obtain ⟨hlow, hhigh, part, hpart, hmiddle⟩ := between_neighbours hlt hfull hrest hx
  have hhalf : 2 * rest = size → 2 * x = value (rankOf doublings significand) +
      value (rankOf doublings significand + 1) := by
    intro heq
    have heq' : (2 * rest : ℚ) = size := by exact_mod_cast heq
    rw [heq', sub_self, zero_mul] at hmiddle
    exact sub_eq_zero.1 hmiddle
  split
  case isTrue hup =>
    rw [rankOf_succ]
    refine .of_upper hhigh (hup.imp (fun hmore => ?_) fun ⟨heq, hodd⟩ => ⟨hhalf heq, ?_⟩)
    · have hmore' : (size : ℚ) < 2 * rest := by exact_mod_cast hmore
      rw [← sub_pos, hmiddle]
      exact mul_pos (sub_pos.2 hmore') hpart
    · rw [← rankOf_succ, even_rankOf]
      exact Nat.even_add_one.2 (Nat.not_even_iff.2 hodd)
  case isFalse hdown =>
    obtain ⟨hless, heven⟩ := not_or.1 hdown
    refine .of_lower hlow ((Nat.lt_or_eq_of_le (not_lt.1 hless)).imp (fun hless => ?_)
      fun heq => ⟨hhalf heq, ?_⟩)
    · have hless' : (2 * rest : ℚ) < size := by exact_mod_cast hless
      rw [← sub_neg, hmiddle]
      exact mul_neg_of_neg_of_pos (sub_neg.2 hless') hpart
    · rw [even_rankOf, Nat.even_iff]
      have hnot : significand % 2 ≠ 1 := fun hodd => heven ⟨heq, hodd⟩
      omega

end Remainders

lemma cast_eq_div_add_mod_div (num : Nat) {den : Nat} (hden : den ≠ 0) :
    (num / den : ℚ) = (num / den : ℕ) + (num % den : ℕ) / den := by
  have hsplit : (num : ℚ) = den * (num / den : ℕ) + (num % den : ℕ) := by
    exact_mod_cast (Nat.div_add_mod num den).symm
  have hden' : (den : ℚ) ≠ 0 := by exact_mod_cast hden
  rw [div_eq_iff hden', add_mul, div_mul_cancel₀ _ hden', hsplit]
  ring

lemma nearestRank_eq (num den : Nat) : nearestRank num den =
    rankOf (binade (num * 2 ^ 1074 / den))
      (roundDiv (num * 2 ^ 1074) (den * 2 ^ binade (num * 2 ^ 1074 / den))) := by
  unfold nearestRank rankOf
  -- the power is not to be computed
  generalize 1074 = exponent
  simp only [Nat.pow_eq]

/-- The rank that the algorithm finds is the nearest one. -/
theorem isNearest_nearestRank (num : Nat) {den : Nat} (hden : den ≠ 0) :
    IsNearest (num / den) (nearestRank num den) := by
  have hunits : (num : ℚ) = (num * 2 ^ 1074 : ℕ) * unit := by
    rw [Nat.cast_mul, Nat.cast_pow, Nat.cast_ofNat, mul_assoc, pow_mul_unit_eq_one, mul_one]
  obtain ⟨hlt, hfull⟩ := significand_bounds (num * 2 ^ 1074 / den)
  rw [Nat.div_div_eq_div_mul] at hlt hfull
  rw [nearestRank_eq, roundDiv, hunits]
  generalize num * 2 ^ 1074 = units at *
  generalize binade (units / den) = doublings at *
  have hsize : den * 2 ^ doublings ≠ 0 := Nat.mul_ne_zero hden (Nat.two_pow_pos _).ne'
  refine isNearest_rankOf hlt hfull (Nat.mod_lt units (Nat.pos_of_ne_zero hsize)) ?_
  have hden' : (den : ℚ) ≠ 0 := by exact_mod_cast hden
  rw [← cast_eq_div_add_mod_div units hsize, ← pow_mul_unit, Nat.cast_mul, Nat.cast_pow,
    Nat.cast_ofNat]
  field_simp

end ImpSyntax.Binary64
