import Mathlib.Algebra.Group.Nat.Defs
import Mathlib.Order.Monotone.Basic
import Mathlib.Tactic.SplitIfs
import ConditionalStyles.Double.Nearest

/-!
# The nearest double is nearest

A quotient is rounded to a whole number of steps of one size, but the finite magnitudes
lie closer together below the binade that the step belongs to.  None of those is nearer,
since the least magnitude of the binade lies between them and the quotient.  So no finite
double is nearer to a whole number than the double it is rounded to, and where another
one is as near, the chosen one has an even rank.  There is only one such double, since an
odd rank lies between two even ones.  The rank of a number that fits a word is finite.
-/

namespace ConditionalStyles

namespace Double

/-! ## Rounding to whole numbers -/

/-- A quotient is rounded by at most half a unit, and by half a unit only to an even
number. -/
theorem roundToEven_error (num : Nat) {den : Nat} (positive : 0 < den) :
    2 * ((num : Int) - (den * roundToEven num den : Nat)).natAbs ≤ den ∧
      (2 * ((num : Int) - (den * roundToEven num den : Nat)).natAbs = den →
        roundToEven num den % 2 = 0) := by
  have split := Nat.div_add_mod num den
  have below : num % den < den := Nat.mod_lt num positive
  simp only [roundToEven]
  generalize num / den = quotient at *
  generalize num % den = remainder at *
  split_ifs with less greater
  · omega
  · rw [Nat.mul_succ]
    omega
  · rcases Nat.mod_two_eq_zero_or_one quotient with even | odd
    · rw [even, Nat.add_zero]
      omega
    · rw [odd, Nat.mul_succ]
      omega

theorem roundToEven_le (num den : Nat) : roundToEven num den ≤ num / den + 1 := by
  simp only [roundToEven]
  split_ifs <;> omega

theorem div_le_roundToEven (num den : Nat) : num / den ≤ roundToEven num den := by
  simp only [roundToEven]
  split_ifs <;> omega

theorem mul_add_le_or_mul_add_le (den : Nat) {first second : Nat} (differ : first ≠ second) :
    den * first + den ≤ den * second ∨ den * second + den ≤ den * first := by
  rcases Nat.lt_or_gt_of_ne differ with less | less
  · exact .inl (Nat.mul_le_mul_left den less)
  · exact .inr (Nat.mul_le_mul_left den less)

/-- No multiple of the denominator is nearer than the chosen one. -/
theorem roundToEven_nearest (num : Nat) {den : Nat} (positive : 0 < den) (other : Nat) :
    ((num : Int) - (den * roundToEven num den : Nat)).natAbs ≤
      ((num : Int) - (den * other : Nat)).natAbs := by
  obtain ⟨near, -⟩ := roundToEven_error num positive
  by_cases same : other = roundToEven num den
  · exact Nat.le_of_eq (by rw [same])
  · have apart := mul_add_le_or_mul_add_le den same
    omega

theorem roundToEven_even {num den other : Nat} (positive : 0 < den)
    (differ : other ≠ roundToEven num den)
    (tie : ((num : Int) - (den * other : Nat)).natAbs =
      ((num : Int) - (den * roundToEven num den : Nat)).natAbs) :
    roundToEven num den % 2 = 0 := by
  obtain ⟨near, even⟩ := roundToEven_error num positive
  have apart := mul_add_le_or_mul_add_le den differ
  exact even (by omega)

/-! ## Magnitudes around a binade -/

/-- The magnitude of a rank given as whole steps of a binade; the end of the binade is the
start of the next one. -/
theorem unitsOfRank_steps {dropped steps : Nat} (bounded : steps ≤ 2 ^ 53)
    (binade : dropped = 0 ∨ 2 ^ 52 ≤ steps) :
    unitsOfRank (dropped * 2 ^ 52 + steps) = steps * 2 ^ dropped := by
  simp only [unitsOfRank, Nat.pow_eq]
  rcases Nat.lt_or_ge steps (2 ^ 52) with subnormal | normal
  · have first : dropped = 0 := binade.resolve_right (by omega)
    rw [first, if_pos (by omega)]
    omega
  · rcases Nat.lt_or_eq_of_le bounded with inside | last
    · have exponent : (dropped * 2 ^ 52 + steps) / 2 ^ 52 = dropped + 1 := by omega
      have fraction : 2 ^ 52 + (dropped * 2 ^ 52 + steps) % 2 ^ 52 = steps := by omega
      rw [exponent, fraction, if_neg (Nat.succ_ne_zero _), Nat.add_sub_cancel]
    · have exponent : (dropped * 2 ^ 52 + steps) / 2 ^ 52 = dropped + 1 + 1 := by omega
      have fraction : 2 ^ 52 + (dropped * 2 ^ 52 + steps) % 2 ^ 52 = 2 ^ 52 := by omega
      rw [exponent, fraction, if_neg (Nat.succ_ne_zero _), Nat.add_sub_cancel, last,
        ← Nat.pow_add, ← Nat.pow_add]
      congr 1
      omega

/-- A magnitude is a whole number of steps of a binade, or lies below the binade. -/
theorem dvd_unitsOfRank_or_lt (rank dropped : Nat) :
    2 ^ dropped ∣ unitsOfRank rank ∨ unitsOfRank rank < 2 ^ (52 + dropped) := by
  have fraction : rank % 2 ^ 52 < 2 ^ 52 := Nat.mod_lt _ (Nat.two_pow_pos 52)
  simp only [unitsOfRank, Nat.pow_eq]
  split_ifs with subnormal
  · exact .inr (Nat.lt_of_lt_of_le fraction (Nat.pow_le_pow_right (by decide) (by omega)))
  · rcases Nat.lt_or_ge (rank / 2 ^ 52 - 1) dropped with lower | upper
    · right
      calc (2 ^ 52 + rank % 2 ^ 52) * 2 ^ (rank / 2 ^ 52 - 1)
          < 2 ^ 53 * 2 ^ (rank / 2 ^ 52 - 1) :=
            Nat.mul_lt_mul_of_pos_right (by omega) (Nat.two_pow_pos _)
        _ = 2 ^ (53 + (rank / 2 ^ 52 - 1)) := (Nat.pow_add ..).symm
        _ ≤ 2 ^ (52 + dropped) := Nat.pow_le_pow_right (by decide) (by omega)
    · exact .inl (Nat.dvd_mul_left_of_dvd (Nat.pow_dvd_pow 2 upper) _)

theorem strictMono_unitsOfRank : StrictMono unitsOfRank := by
  refine strictMono_nat_of_lt_succ fun rank => ?_
  obtain ⟨dropped, steps, split, small, binade⟩ : ∃ dropped steps,
      rank = dropped * 2 ^ 52 + steps ∧ steps < 2 ^ 53 ∧ (dropped = 0 ∨ 2 ^ 52 ≤ steps) :=
    ⟨rank / 2 ^ 52 - 1, rank - (rank / 2 ^ 52 - 1) * 2 ^ 52, by omega, by omega, by omega⟩
  rw [split, Nat.add_assoc, unitsOfRank_steps (Nat.le_of_lt small) binade,
    unitsOfRank_steps small (by omega)]
  exact Nat.mul_lt_mul_of_pos_right (Nat.lt_succ_self steps) (Nat.two_pow_pos dropped)

/-! ## The nearest rank -/

section

variable (num : Nat) {den : Nat}

/-- The size of the steps that a quotient is rounded to, over its denominator. -/
def stepOf (num den : Nat) : Nat :=
  den * 2 ^ ((num / den).log2 - 52)

theorem nearestRank_eq (num den : Nat) :
    nearestRank num den =
      ((num / den).log2 - 52) * 2 ^ 52 + roundToEven num (stepOf num den) :=
  rfl

theorem stepOf_pos (positive : 0 < den) : 0 < stepOf num den :=
  Nat.mul_pos positive (Nat.two_pow_pos _)

theorem lt_stepOf_mul (positive : 0 < den) : num < stepOf num den * 2 ^ 53 := by
  have bits : num / den < 2 ^ ((num / den).log2 - 52 + 53) :=
    Nat.lt_of_lt_of_le Nat.lt_log2_self (Nat.pow_le_pow_right (by decide) (by omega))
  rw [Nat.div_lt_iff_lt_mul positive] at bits
  rwa [stepOf, Nat.mul_assoc, ← Nat.pow_add, Nat.mul_comm]

theorem stepOf_mul_le (large : (num / den).log2 - 52 ≠ 0) : stepOf num den * 2 ^ 52 ≤ num := by
  have nonzero : num / den ≠ 0 := by
    intro zero
    rw [zero] at large
    exact large rfl
  have bits : 2 ^ ((num / den).log2 - 52 + 52) ≤ num / den := by
    rw [show (num / den).log2 - 52 + 52 = (num / den).log2 by omega]
    exact Nat.log2_self_le nonzero
  rw [stepOf, Nat.mul_assoc, ← Nat.pow_add]
  exact Nat.le_trans (Nat.mul_le_mul_left den bits) (Nat.mul_div_le num den)

/-- The magnitude of the nearest rank is the chosen multiple of the step. -/
theorem mul_unitsOfRank_nearestRank (positive : 0 < den) :
    den * unitsOfRank (nearestRank num den) =
      stepOf num den * roundToEven num (stepOf num den) := by
  have below : num / stepOf num den < 2 ^ 53 :=
    (Nat.div_lt_iff_lt_mul (stepOf_pos num positive)).2 (by
      rw [Nat.mul_comm]
      exact lt_stepOf_mul num positive)
  have bounded : roundToEven num (stepOf num den) ≤ 2 ^ 53 :=
    Nat.le_trans (roundToEven_le num (stepOf num den)) below
  have binade : (num / den).log2 - 52 = 0 ∨ 2 ^ 52 ≤ roundToEven num (stepOf num den) := by
    by_cases units : (num / den).log2 - 52 = 0
    · exact .inl units
    · refine .inr (Nat.le_trans ?_ (div_le_roundToEven num (stepOf num den)))
      rw [Nat.le_div_iff_mul_le (stepOf_pos num positive), Nat.mul_comm]
      exact stepOf_mul_le num units
  rw [nearestRank_eq, unitsOfRank_steps bounded binade, stepOf, Nat.mul_comm (roundToEven _ _),
    Nat.mul_assoc]

/-- A magnitude is a multiple of the step, or lies below the binade of the quotient. -/
theorem exists_mul_unitsOfRank_eq_or_lt (positive : 0 < den) (rank : Nat) :
    (∃ steps, den * unitsOfRank rank = stepOf num den * steps) ∨
      den * unitsOfRank rank < stepOf num den * 2 ^ 52 ∧ stepOf num den * 2 ^ 52 ≤ num := by
  rcases dvd_unitsOfRank_or_lt rank ((num / den).log2 - 52) with ⟨steps, whole⟩ | below
  · exact .inl ⟨steps, by rw [whole, stepOf, Nat.mul_assoc]⟩
  · by_cases units : (num / den).log2 - 52 = 0
    · exact .inl ⟨unitsOfRank rank, by rw [stepOf, units, Nat.pow_zero, Nat.mul_one]⟩
    · refine .inr ⟨?_, stepOf_mul_le num units⟩
      rw [stepOf, Nat.mul_assoc, ← Nat.pow_add, Nat.add_comm]
      exact Nat.mul_lt_mul_of_pos_left below positive

/-- No finite magnitude is nearer to a quotient than the one of its nearest rank. -/
theorem nearestRank_nearest (positive : 0 < den) (other : Nat) :
    ((num : Int) - (den * unitsOfRank (nearestRank num den) : Nat)).natAbs ≤
      ((num : Int) - (den * unitsOfRank other : Nat)).natAbs := by
  have nearest := roundToEven_nearest num (stepOf_pos num positive)
  rw [mul_unitsOfRank_nearestRank num positive]
  rcases exists_mul_unitsOfRank_eq_or_lt num positive other with ⟨steps, whole⟩ | ⟨below, low⟩
  · rw [whole]
    exact nearest steps
  · -- The least magnitude of the binade lies between the other one and the quotient.
    have least := nearest (2 ^ 52)
    omega

variable {num}

/-- Where another magnitude is as near, the nearest rank is even. -/
theorem nearestRank_even {other : Nat} (positive : 0 < den)
    (differ : unitsOfRank other ≠ unitsOfRank (nearestRank num den))
    (tie : ((num : Int) - (den * unitsOfRank other : Nat)).natAbs =
      ((num : Int) - (den * unitsOfRank (nearestRank num den) : Nat)).natAbs) :
    nearestRank num den % 2 = 0 := by
  have chosen := mul_unitsOfRank_nearestRank num positive
  have apart : den * unitsOfRank other ≠ den * unitsOfRank (nearestRank num den) :=
    fun same => differ (Nat.eq_of_mul_eq_mul_left positive same)
  rw [chosen] at tie apart
  have even : roundToEven num (stepOf num den) % 2 = 0 := by
    rcases exists_mul_unitsOfRank_eq_or_lt num positive other with
      ⟨steps, whole⟩ | ⟨below, low⟩
    · rw [whole] at tie apart
      exact roundToEven_even (stepOf_pos num positive)
        (fun same => apart (by rw [same])) tie
    · have least := roundToEven_nearest num (stepOf_pos num positive) (2 ^ 52)
      omega
  rw [nearestRank_eq]
  omega

end

/-! ## Bounds on ranks -/

theorem nearestRank_le {num bits : Nat} (small : num < 2 ^ (bits + 53)) :
    nearestRank num 1 ≤ (bits + 2) * 2 ^ 52 := by
  have dropped : num.log2 - 52 ≤ bits := by
    by_cases zero : num = 0
    · rw [zero]
      exact Nat.zero_le bits
    · have := (Nat.log2_lt zero).2 small
      omega
  have kept : num / 2 ^ (num.log2 - 52) < 2 ^ 53 := by
    rw [Nat.div_lt_iff_lt_mul (Nat.two_pow_pos _), ← Nat.pow_add]
    exact Nat.lt_of_lt_of_le Nat.lt_log2_self (Nat.pow_le_pow_right (by decide) (by omega))
  have rounded := roundToEven_le num (2 ^ (num.log2 - 52))
  have steps : (num.log2 - 52) * 2 ^ 52 ≤ bits * 2 ^ 52 := Nat.mul_le_mul_right _ dropped
  simp only [nearestRank, Nat.pow_eq, Nat.div_one, Nat.one_mul]
  rw [Nat.add_mul]
  exact Nat.add_le_add steps (by omega)

theorem rank_lt_of_lt_word {number exponent : Nat} (small : number < 2 ^ 64)
    (unit : unitsPerOne = Nat.pow 2 exponent) (few : exponent + 13 < 2047) :
    Decimal.rank { coefficient := number, exponent := 0 } < rankLimit := by
  have magnitude : Decimal.rank { coefficient := number, exponent := 0 } =
      nearestRank (number * 1 * unitsPerOne) 1 := rfl
  have bits : number * 2 ^ exponent < 2 ^ (exponent + 11 + 53) :=
    calc number * 2 ^ exponent < 2 ^ 64 * 2 ^ exponent :=
          Nat.mul_lt_mul_of_pos_right small (Nat.two_pow_pos exponent)
      _ = 2 ^ (exponent + 11 + 53) := by rw [← Nat.pow_add, Nat.add_comm 64 exponent]
  rw [magnitude, Nat.mul_one, unit]
  exact Nat.lt_of_le_of_lt (nearestRank_le bits)
    (Nat.mul_lt_mul_of_pos_right few (Nat.two_pow_pos 52))

namespace Finite

/-! ## Whole numbers -/

def signedUnits (number : Finite) : Int :=
  if number.negative then -(number.units : Int) else number.units

def distance (number : Finite) (value : Int) : Nat :=
  (value * unitsPerOne - number.signedUnits).natAbs

/-- The number is the double nearest to a whole number. -/
structure IsNearestToInt (number : Finite) (value : Int) : Prop where
  nearest (other : Finite) : number.distance value ≤ other.distance value
  /-- Where another one is as near, the last fraction bit of this one is zero. -/
  even {other : Finite} (differ : other.signedUnits ≠ number.signedUnits)
    (tie : other.distance value = number.distance value) : number.rank % 2 = 0
  /-- The sign is that of the whole number; zero has none. -/
  sign : number.negative = decide (value < 0)

theorem natAbs_mul_unitsPerOne (value : Int) :
    (value * unitsPerOne).natAbs = value.natAbs * unitsPerOne := by
  rw [Int.natAbs_mul, Int.natAbs_natCast]

theorem distance_eq {number : Finite} {value : Int}
    (sign : number.negative = decide (value < 0)) :
    number.distance value =
      ((value.natAbs * unitsPerOne : Nat) - (number.units : Int)).natAbs := by
  have unit : (0 : Int) ≤ unitsPerOne := Int.natCast_nonneg _
  rw [distance, signedUnits, sign, ← natAbs_mul_unitsPerOne]
  by_cases negative : value < 0
  · have below : value * unitsPerOne ≤ 0 :=
      Int.mul_nonpos_of_nonpos_of_nonneg (Int.le_of_lt negative) unit
    rw [decide_eq_true negative, if_pos rfl]
    omega
  · have above : 0 ≤ value * unitsPerOne := Int.mul_nonneg (Int.not_lt.1 negative) unit
    rw [decide_eq_false negative, if_neg Bool.false_ne_true]
    omega

theorem le_distance (number : Finite) (value : Int) :
    ((value.natAbs * unitsPerOne : Nat) - (number.units : Int)).natAbs ≤
      number.distance value := by
  rw [distance, signedUnits, ← natAbs_mul_unitsPerOne]
  split_ifs <;> omega

theorem isNearestToInt_of_rank {number : Finite} {value : Int}
    (sign : number.negative = decide (value < 0))
    (rank : number.rank = nearestRank (value.natAbs * unitsPerOne) 1) :
    number.IsNearestToInt value := by
  have chosen : number.units =
      unitsOfRank (nearestRank (value.natAbs * unitsPerOne) 1) := by rw [units, rank]
  have nearest (other : Nat) :
      ((value.natAbs * unitsPerOne : Nat) - (number.units : Int)).natAbs ≤
        ((value.natAbs * unitsPerOne : Nat) - (unitsOfRank other : Int)).natAbs := by
    have least := nearestRank_nearest (value.natAbs * unitsPerOne) Nat.one_pos other
    rwa [Nat.one_mul, Nat.one_mul, ← chosen] at least
  have even {other : Nat} (differ : unitsOfRank other ≠ number.units)
      (tie : ((value.natAbs * unitsPerOne : Nat) - (unitsOfRank other : Int)).natAbs =
        ((value.natAbs * unitsPerOne : Nat) - (number.units : Int)).natAbs) :
      number.rank % 2 = 0 := by
    rw [rank]
    refine nearestRank_even Nat.one_pos (chosen ▸ differ) ?_
    rw [Nat.one_mul, Nat.one_mul, ← chosen]
    exact tie
  have distance := distance_eq sign
  refine ⟨fun other => ?_, fun {other} differ tie => ?_, sign⟩
  · rw [distance]
    exact Nat.le_trans (nearest other.rank) (other.le_distance value)
  · by_cases same : other.units = number.units
    · -- The other one is the opposite number, which is as near to zero alone.
      have opposite : other.signedUnits = -number.signedUnits := by
        simp only [signedUnits, same] at differ ⊢
        split_ifs at differ ⊢ <;> omega
      have atZero : number.distance value ≤ (value * unitsPerOne).natAbs := by
        have least := nearest 0
        have zero : unitsOfRank 0 = 0 := by decide
        rw [zero] at least
        rw [distance, natAbs_mul_unitsPerOne]
        omega
      simp only [Finite.distance] at tie atZero
      omega
    · refine even same (Nat.le_antisymm ?_ (nearest other.rank))
      rw [← distance, ← tie]
      exact other.le_distance value

theorem IsNearestToInt.rank_le {first second : Finite} {value : Int}
    (nearest : first.IsNearestToInt value) (nearest' : second.IsNearestToInt value) :
    second.rank ≤ first.rank := by
  refine Nat.le_of_not_lt fun less => ?_
  have sign : second.negative = first.negative := nearest'.sign.trans nearest.sign.symm
  have tie : second.distance value = first.distance value :=
    Nat.le_antisymm (nearest'.nearest first) (nearest.nearest second)
  have greater : first.units < second.units := strictMono_unitsOfRank less
  have differ : second.signedUnits ≠ first.signedUnits := by
    simp only [signedUnits, sign]
    split_ifs <;> omega
  have even := nearest.even differ tie
  have even' := nearest'.even differ.symm tie.symm
  -- Between two even ranks lies an odd one, which is nearer than both.
  let middle : Finite := ⟨first.negative, first.rank + 1, Nat.lt_of_le_of_lt less second.rank_lt⟩
  have above : first.units < middle.units := strictMono_unitsOfRank (Nat.lt_succ_self _)
  have below : middle.units < second.units :=
    strictMono_unitsOfRank (show first.rank + 1 < second.rank by omega)
  have least := nearest.nearest middle
  rw [distance_eq nearest.sign, distance_eq (show middle.negative = _ from nearest.sign)] at least
  rw [distance_eq nearest.sign, distance_eq nearest'.sign] at tie
  omega

/-- No two doubles are nearest to one whole number. -/
theorem IsNearestToInt.unique {first second : Finite} {value : Int}
    (nearest : first.IsNearestToInt value) (nearest' : second.IsNearestToInt value) :
    first = second := by
  have sign : first.negative = second.negative := nearest.sign.trans nearest'.sign.symm
  have rank : first.rank = second.rank :=
    Nat.le_antisymm (nearest'.rank_le nearest) (nearest.rank_le nearest')
  obtain ⟨negative, rank, rank_lt⟩ := first
  obtain ⟨negative', rank', rank_lt'⟩ := second
  cases sign
  cases rank
  rfl

/-- A whole number is rounded to the double nearest to it. -/
theorem isNearestToInt_of_ofInt {number : Finite} {value : Int}
    (rounded : Double.ofInt value = .finite number) : number.IsNearestToInt value := by
  have magnitude : Decimal.rank { coefficient := value.natAbs, exponent := 0 } =
      nearestRank (value.natAbs * 1 * unitsPerOne) 1 := rfl
  rw [Nat.mul_one] at magnitude
  rw [ofInt, ofDecimal, magnitude, ofRank] at rounded
  split at rounded
  · cases rounded
    exact isNearestToInt_of_rank rfl rfl
  · cases rounded

end Finite

end Double

end ConditionalStyles
