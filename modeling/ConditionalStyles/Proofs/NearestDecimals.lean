import Mathlib.Algebra.Order.Field.Rat
import Mathlib.Tactic.FieldSimp
import Mathlib.Tactic.Linarith
import Mathlib.Tactic.Positivity
import ConditionalStyles.Proofs.NearestDoubles

/-!
# Decimals and the doubles nearest to them

A decimal is rounded correctly: the double it is read as is the nearest one, of two equally
near ones that with the even rank.  This says which double a number stands for without a word
about quotients and bits, and makes two things plain.  The numbers that stand for one double
lie around it without gaps, and a number that is off by less than one part in `2 ^ 54` stands
for it.
-/

namespace ConditionalStyles

def Decimal.value (decimal : Decimal) : ℚ :=
  decimal.coefficient * 10 ^ decimal.exponent

namespace Double

def magnitude (rank : Nat) : ℚ :=
  unitsOfRank rank / unitsPerOne

/-- A number stands for the double of a rank, if it has no sign.  Ranks past the finite ones
take part as if the exponents went on, so a number that stands for a finite rank does not
overflow. -/
structure IsNearestRank (rank : Nat) (exact : ℚ) : Prop where
  nearest (other : Nat) : |exact - magnitude rank| ≤ |exact - magnitude other|
  /-- Where another one is as near, the last fraction bit of this one is zero. -/
  even {other : Nat} (differ : other ≠ rank)
    (tie : |exact - magnitude other| = |exact - magnitude rank|) : rank % 2 = 0

theorem unitsPerOne_pos : 0 < unitsPerOne := by
  decide +kernel

theorem unitsOfRank_zero : unitsOfRank 0 = 0 := by
  decide

theorem magnitude_zero : magnitude 0 = 0 := by
  rw [magnitude, unitsOfRank_zero, Nat.cast_zero, zero_div]

theorem strictMono_magnitude : StrictMono magnitude := by
  intro first second less
  have unit : (0 : ℚ) < unitsPerOne := Nat.cast_pos.2 unitsPerOne_pos
  exact div_lt_div_of_pos_right (Nat.cast_lt.2 (strictMono_unitsOfRank less)) unit

/-! ## The rank of a number -/

theorem abs_sub_magnitude (num : Nat) {den : Nat} (positive : 0 < den) (rank : Nat) :
    |(num : ℚ) / (den * unitsPerOne) - magnitude rank| =
      ((num : Int) - (den * unitsOfRank rank : Nat)).natAbs / (den * unitsPerOne) := by
  have den_pos : (0 : ℚ) < den := Nat.cast_pos.2 positive
  have unit_pos : (0 : ℚ) < unitsPerOne := Nat.cast_pos.2 unitsPerOne_pos
  have common : (num : ℚ) / (den * unitsPerOne) - magnitude rank =
      ((num : Int) - (den * unitsOfRank rank : Nat) : Int) / (den * unitsPerOne) := by
    rw [magnitude]
    push_cast
    field_simp
  rw [common, abs_div, abs_of_pos (mul_pos den_pos unit_pos), ← Int.cast_abs, Int.abs_eq_natAbs,
    Int.cast_natCast]

theorem isNearestRank_nearestRank (num : Nat) {den : Nat} (positive : 0 < den) :
    IsNearestRank (nearestRank num den) (num / (den * unitsPerOne)) := by
  have scale : (0 : ℚ) < den * unitsPerOne :=
    mul_pos (Nat.cast_pos.2 positive) (Nat.cast_pos.2 unitsPerOne_pos)
  constructor
  · intro other
    rw [abs_sub_magnitude num positive, abs_sub_magnitude num positive]
    exact div_le_div_of_nonneg_right (Nat.cast_le.2 (nearestRank_nearest num positive other))
      scale.le
  · intro other differ tie
    rw [abs_sub_magnitude num positive, abs_sub_magnitude num positive,
      div_left_inj' scale.ne', Nat.cast_inj] at tie
    exact nearestRank_even positive (strictMono_unitsOfRank.injective.ne differ) tie

theorem abs_sub_lt_of_tie {exact first middle second : ℚ} (above : first < middle)
    (below : middle < second) (tie : |exact - second| = |exact - first|) :
    |exact - middle| < |exact - first| := by
  rcases abs_eq_abs.1 tie with same | opposite
  · linarith
  · rw [abs_of_nonneg (show 0 ≤ exact - first by linarith), abs_lt]
    constructor <;> linarith

namespace IsNearestRank

variable {rank other : Nat} {exact inner : ℚ}

theorem le_of_isNearestRank (nearest : IsNearestRank rank exact)
    (nearest' : IsNearestRank other exact) : other ≤ rank := by
  refine Nat.le_of_not_lt fun less => ?_
  have tie : |exact - magnitude other| = |exact - magnitude rank| :=
    le_antisymm (nearest'.nearest rank) (nearest.nearest other)
  have even := nearest.even less.ne' tie
  have even' := nearest'.even less.ne tie.symm
  -- Between two even ranks lies an odd one, which is nearer than both.
  have above : magnitude rank < magnitude (rank + 1) := strictMono_magnitude (Nat.lt_succ_self _)
  have below : magnitude (rank + 1) < magnitude other := strictMono_magnitude (by omega)
  exact absurd (nearest.nearest (rank + 1)) (abs_sub_lt_of_tie above below tie).not_ge

/-- A number stands for one double at most. -/
theorem unique (nearest : IsNearestRank rank exact) (nearest' : IsNearestRank other exact) :
    rank = other :=
  Nat.le_antisymm (nearest'.le_of_isNearestRank nearest) (nearest.le_of_isNearestRank nearest')

/-- What lies between a double and a number that stands for it stands for it as well. -/
theorem between (nearest : IsNearestRank rank exact)
    (inside : exact ≤ inner ∧ inner ≤ magnitude rank ∨
      magnitude rank ≤ inner ∧ inner ≤ exact) :
    IsNearestRank rank inner := by
  have split : |exact - magnitude rank| = |exact - inner| + |inner - magnitude rank| := by
    rcases inside with ⟨low, high⟩ | ⟨low, high⟩
    · rw [abs_of_nonpos, abs_of_nonpos, abs_of_nonpos] <;> linarith
    · rw [abs_of_nonneg, abs_of_nonneg, abs_of_nonneg] <;> linarith
  have detour (other : Nat) :
      |exact - magnitude other| ≤ |exact - inner| + |inner - magnitude other| :=
    abs_sub_le exact inner (magnitude other)
  constructor
  · intro other
    linarith [nearest.nearest other, detour other]
  · intro other differ tie
    refine nearest.even differ (le_antisymm ?_ (nearest.nearest other))
    linarith [detour other]

end IsNearestRank

/-! ## Numbers near a double -/

theorem isNearestRank_magnitude (rank : Nat) : IsNearestRank rank (magnitude rank) := by
  constructor
  · intro other
    rw [sub_self, abs_zero]
    exact abs_nonneg _
  · intro other differ tie
    rw [sub_self, abs_zero, abs_eq_zero, sub_eq_zero] at tie
    exact absurd (strictMono_magnitude.injective tie).symm differ

/-- The next magnitude is off by at least one part in `2 ^ 53`. -/
theorem unitsOfRank_succ_le (rank : Nat) :
    unitsOfRank (rank + 1) ≤ 2 ^ 53 * (unitsOfRank (rank + 1) - unitsOfRank rank) := by
  obtain ⟨dropped, steps, split, small, binade⟩ : ∃ dropped steps,
      rank = dropped * 2 ^ 52 + steps ∧ steps < 2 ^ 53 ∧ (dropped = 0 ∨ 2 ^ 52 ≤ steps) :=
    ⟨rank / 2 ^ 52 - 1, rank - (rank / 2 ^ 52 - 1) * 2 ^ 52, by omega, by omega, by omega⟩
  rw [split, Nat.add_assoc, unitsOfRank_steps (Nat.le_of_lt small) binade,
    unitsOfRank_steps small (by omega), ← Nat.sub_mul, Nat.succ_sub (Nat.le_refl steps),
    Nat.sub_self, Nat.one_mul]
  exact Nat.mul_le_mul_right _ small

theorem magnitude_le_mul_abs_sub {rank other : Nat} (differ : other ≠ rank) :
    magnitude rank ≤ 2 ^ 53 * |magnitude rank - magnitude other| := by
  have step (rank : Nat) :
      magnitude (rank + 1) ≤ 2 ^ 53 * (magnitude (rank + 1) - magnitude rank) := by
    have unit : (0 : ℚ) < unitsPerOne := Nat.cast_pos.2 unitsPerOne_pos
    have units := unitsOfRank_succ_le rank
    have less := strictMono_unitsOfRank (Nat.lt_succ_self rank)
    rw [magnitude, magnitude, ← sub_div, ← mul_div_assoc, div_le_div_iff_of_pos_right unit,
      ← Nat.cast_sub less.le]
    exact_mod_cast units
  rcases Nat.lt_or_gt_of_ne differ with less | greater
  · obtain ⟨previous, rfl⟩ := Nat.exists_eq_succ_of_ne_zero (Nat.ne_zero_of_lt less)
    have below : magnitude other ≤ magnitude previous :=
      strictMono_magnitude.monotone (Nat.le_of_lt_succ less)
    have above : magnitude previous < magnitude (previous + 1) :=
      strictMono_magnitude (Nat.lt_succ_self previous)
    rw [abs_of_pos (show 0 < magnitude (previous + 1) - magnitude other by linarith)]
    linarith [step previous]
  · have above : magnitude (rank + 1) ≤ magnitude other := strictMono_magnitude.monotone greater
    have next : magnitude rank < magnitude (rank + 1) :=
      strictMono_magnitude (Nat.lt_succ_self rank)
    rw [abs_of_neg (show magnitude rank - magnitude other < 0 by linarith)]
    linarith [step rank]

/-- A number that is off by less than one part in `2 ^ 54` stands for the double. -/
theorem isNearestRank_of_near {rank : Nat} {exact : ℚ}
    (near : 2 ^ 54 * |exact - magnitude rank| < magnitude rank) : IsNearestRank rank exact := by
  have farther {other : Nat} (differ : other ≠ rank) :
      |exact - magnitude rank| < |exact - magnitude other| := by
    have gap := magnitude_le_mul_abs_sub differ
    have detour := abs_sub_le (magnitude rank) exact (magnitude other)
    rw [abs_sub_comm (magnitude rank) exact] at detour
    linarith
  constructor
  · intro other
    by_cases same : other = rank
    · rw [same]
    · exact (farther same).le
  · intro other differ tie
    exact absurd tie (farther differ).ne'

end Double

namespace Decimal

/-! ## Decimals -/

theorem value_mul_pow_ten (coefficient zeros : Nat) (exponent : Int) :
    value { coefficient := coefficient * 10 ^ zeros, exponent } =
      value { coefficient, exponent := exponent + zeros } := by
  rw [value, value, Nat.cast_mul, Nat.cast_pow, Nat.cast_ofNat, Int.add_comm,
    zpow_add₀ (by norm_num), zpow_natCast, mul_assoc]

theorem units_pos (decimal : Decimal) : 0 < decimal.units.2 := by
  obtain ⟨coefficient, exponent⟩ := decimal
  cases exponent with
  | ofNat up => exact Nat.one_pos
  | negSucc down => exact Nat.pow_pos (by decide)

theorem value_eq_units (decimal : Decimal) :
    decimal.value = decimal.units.1 / (decimal.units.2 * Double.unitsPerOne) := by
  have unit : (Double.unitsPerOne : ℚ) ≠ 0 := Nat.cast_ne_zero.2 Double.unitsPerOne_pos.ne'
  obtain ⟨coefficient, exponent⟩ := decimal
  cases exponent with
  | ofNat up =>
      simp only [value, units, Nat.pow_eq, Int.ofNat_eq_natCast, zpow_natCast]
      push_cast
      field_simp
  | negSucc down =>
      simp only [value, units, Nat.pow_eq, zpow_negSucc]
      push_cast
      field_simp

/-- A decimal is rounded correctly. -/
theorem isNearestRank_rank (decimal : Decimal) :
    Double.IsNearestRank decimal.rank decimal.value := by
  rw [value_eq_units]
  exact Double.isNearestRank_nearestRank decimal.units.1 decimal.units_pos

/-- The rank of a decimal is the only one that it stands for. -/
theorem rank_eq_iff {decimal : Decimal} {rank : Nat} :
    decimal.rank = rank ↔ Double.IsNearestRank rank decimal.value := by
  constructor
  · rintro rfl
    exact decimal.isNearestRank_rank
  · exact decimal.isNearestRank_rank.unique

end Decimal

end ConditionalStyles
