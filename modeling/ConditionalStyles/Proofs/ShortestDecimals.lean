import Mathlib.Algebra.Order.Floor.Semifield
import Mathlib.Data.Rat.Floor
import ConditionalStyles.Double.Shortest
import ConditionalStyles.Proofs.NearestDecimals
import ConditionalStyles.Proofs.Numerals

/-!
# The shortest decimal of a double

Of the decimals that stand for a double, the one found by the search over grids has the
fewest digits, and of those with as few digits it is a nearest one.  On the grid of a
competitor one of the two neighbours of the double stands for it as well and is not farther
away, so the search stops there at the latest.  It stops at all, since of the two neighbours
on the grid of seventeen digits one is off by less than one part in `2 ^ 54`.
-/

namespace ConditionalStyles

namespace Decimal

/-! ## Digits of a decimal -/

def digitCount (decimal : Decimal) : Nat :=
  (Numeral.digits 10 decimal.coefficient).length

theorem digitCount_pos (decimal : Decimal) : 0 < decimal.digitCount :=
  Numeral.length_digits_pos 10 decimal.coefficient

theorem coefficient_strip_le (decimal : Decimal) :
    decimal.strip.coefficient ≤ decimal.coefficient := by
  fun_induction strip decimal with
  | case1 decimal trailing ih => exact ih.trans (Nat.div_le_self decimal.coefficient 10)
  | case2 decimal done => exact Nat.le_refl _

theorem digitCount_strip_le {decimal : Decimal} {count : Nat}
    (bounded : decimal.coefficient ≤ 10 ^ (count + 1)) :
    decimal.strip.digitCount ≤ count + 1 := by
  refine (Numeral.length_digits_le_iff (by decide)).2 ?_
  rcases Nat.lt_or_eq_of_le bounded with less | power
  · exact Nat.lt_of_le_of_lt decimal.coefficient_strip_le less
  · have positive : 0 < 10 ^ count := Nat.pow_pos (by decide)
    rw [Nat.pow_succ] at power
    have trailing : decimal.coefficient ≠ 0 ∧ decimal.coefficient % 10 = 0 := by omega
    rw [strip, if_pos trailing]
    have less := coefficient_strip_le ⟨decimal.coefficient / 10, decimal.exponent + 1⟩
    rw [Nat.pow_succ]
    dsimp only at less
    omega

theorem coefficient_strip_mod_ne_zero {decimal : Decimal} (nonzero : decimal.coefficient ≠ 0) :
    decimal.strip.coefficient % 10 ≠ 0 := by
  fun_induction strip decimal with
  | case1 decimal trailing ih => exact ih (by dsimp only; omega)
  | case2 decimal done => exact fun trailing => done ⟨nonzero, trailing⟩

theorem value_strip (decimal : Decimal) : decimal.strip.value = decimal.value := by
  fun_induction strip decimal with
  | case1 decimal trailing ih =>
      have whole : decimal.coefficient / 10 * 10 = decimal.coefficient :=
        Nat.div_mul_cancel (Nat.dvd_of_mod_eq_zero trailing.2)
      have shifted := value_mul_pow_ten (decimal.coefficient / 10) 1 decimal.exponent
      rw [Nat.pow_one, whole] at shifted
      exact ih.trans shifted.symm
  | case2 decimal done => rfl

theorem value_lt (decimal : Decimal) :
    decimal.value < 10 ^ (decimal.digitCount + decimal.exponent) := by
  have power : (0 : ℚ) < 10 ^ decimal.exponent := zpow_pos (by norm_num) _
  have digits : decimal.coefficient < 10 ^ decimal.digitCount :=
    Numeral.lt_pow_length_digits (by decide) decimal.coefficient
  rw [value, zpow_add₀ (by norm_num), zpow_natCast]
  exact mul_lt_mul_of_pos_right (mod_cast digits) power

end Decimal

namespace Double.Finite

variable {number : Finite} {decimal : Decimal}

/-- The test of the search says whether a decimal stands for the number. -/
theorem isNearestTo_iff :
    number.isNearestTo decimal = true ↔ IsNearestRank number.rank decimal.value := by
  rw [isNearestTo, decide_eq_true_iff, ofDecimal, ← Decimal.rank_eq_iff]
  constructor
  · intro nearest
    by_cases bounded : decimal.rank < rankLimit
    · rw [ofRank_of_lt bounded] at nearest
      rw [← Double.finite.inj nearest]
    · rw [ofRank_of_le (Nat.le_of_not_lt bounded)] at nearest
      cases nearest
  · intro same
    rw [same, ofRank_of_lt number.rank_lt]

/-! ## The leading power of ten -/

theorem units_pos (positive : ¬ number.isZero = true) : 0 < number.units := by
  have rank : 0 < number.rank := Nat.pos_of_ne_zero fun zero => positive (beq_iff_eq.2 zero)
  exact unitsOfRank_zero ▸ strictMono_unitsOfRank rank

/-- The leading power of ten and the one below it enclose the magnitude. -/
theorem leadingExponent_bounds (positive : ¬ number.isZero = true) :
    (10 : ℚ) ^ (number.leadingExponent - 1) ≤ magnitude number.rank ∧
      magnitude number.rank < 10 ^ number.leadingExponent := by
  have unit : (0 : ℚ) < unitsPerOne := Nat.cast_pos.2 unitsPerOne_pos
  have units_pos := units_pos positive
  rw [magnitude, le_div_iff₀ unit, div_lt_iff₀ unit]
  show _ ≤ (number.units : ℚ) ∧ (number.units : ℚ) < _
  rw [leadingExponent]
  split
  · rename_i large
    have quotient : number.units / unitsPerOne ≠ 0 :=
      (Nat.div_pos large unitsPerOne_pos).ne'
    obtain ⟨count, digits, low, high⟩ := Numeral.exists_length_digits (by decide : 2 ≤ 10) quotient
    rw [Nat.le_div_iff_mul_le unitsPerOne_pos] at low
    rw [Nat.div_lt_iff_lt_mul unitsPerOne_pos] at high
    rw [digits, Nat.cast_add_one, add_sub_cancel_right, zpow_natCast, ← Nat.cast_add_one,
      zpow_natCast]
    exact_mod_cast And.intro low high
  · rename_i small
    have quotient : (unitsPerOne - 1) / number.units ≠ 0 :=
      (Nat.div_pos (by omega) units_pos).ne'
    obtain ⟨count, digits, low, high⟩ := Numeral.exists_length_digits (by decide : 2 ≤ 10) quotient
    rw [Nat.le_div_iff_mul_le units_pos] at low
    rw [Nat.div_lt_iff_lt_mul units_pos] at high
    have low' : unitsPerOne ≤ number.units * 10 ^ (count + 1) := by
      rw [Nat.mul_comm]
      omega
    have high' : number.units * 10 ^ count < unitsPerOne := by
      rw [Nat.mul_comm]
      omega
    rw [digits, show (1 : Int) - (count + 1 : Nat) = -(count : Nat) by omega,
      show -(count : Int) - 1 = -(count + 1 : Nat) by omega, zpow_neg, zpow_neg, zpow_natCast,
      zpow_natCast, inv_mul_le_iff₀ (by positivity), lt_inv_mul_iff₀ (by positivity)]
    constructor
    · rw [mul_comm]
      exact_mod_cast low'
    · rw [mul_comm]
      exact_mod_cast high'

/-! ## Grids -/

theorem overPower_pos (number : Finite) (exponent : Int) :
    0 < (number.overPower exponent).2 := by
  cases exponent with
  | ofNat up =>
      dsimp only [overPower]
      exact Nat.mul_pos unitsPerOne_pos (Nat.pow_pos (by decide))
  | negSucc down =>
      dsimp only [overPower]
      exact unitsPerOne_pos

theorem overPower_eq (number : Finite) (exponent : Int) :
    ((number.overPower exponent).1 : ℚ) / (number.overPower exponent).2 =
      magnitude number.rank / 10 ^ exponent := by
  have unit : (unitsPerOne : ℚ) ≠ 0 := Nat.cast_ne_zero.2 unitsPerOne_pos.ne'
  cases exponent with
  | ofNat up =>
      simp only [overPower, units, magnitude, Nat.pow_eq, Int.ofNat_eq_natCast, zpow_natCast]
      push_cast
      exact div_mul_eq_div_div _ _ _
  | negSucc down =>
      simp only [overPower, units, magnitude, Nat.pow_eq, zpow_negSucc, div_inv_eq_mul]
      push_cast
      exact mul_div_right_comm _ _ _

/-- How far a decimal is off, if it has no sign. -/
def error (number : Finite) (decimal : Decimal) : ℚ :=
  |decimal.value - magnitude number.rank|

theorem error_eq (number : Finite) (coefficient : Nat) (exponent : Int) :
    number.error { coefficient, exponent } =
      |(coefficient : ℚ) - magnitude number.rank / 10 ^ exponent| * 10 ^ exponent := by
  have power : (0 : ℚ) < 10 ^ exponent := zpow_pos (by norm_num) _
  have scaled : ((coefficient : ℚ) - magnitude number.rank / 10 ^ exponent) * 10 ^ exponent =
      coefficient * 10 ^ exponent - magnitude number.rank := by
    rw [sub_mul, div_mul_cancel₀ _ power.ne']
  rw [error, Decimal.value, ← scaled, abs_mul, abs_of_pos power]

theorem neighbour?_eq_some {tie : Tie} {passes : Decimal → Bool} {exponent : Int}
    {num den : Nat} (chosen : neighbour? tie passes exponent num den = some decimal) :
    passes decimal = true ∧ (decimal = { coefficient := num / den, exponent } ∨
      decimal = { coefficient := num / den + 1, exponent }) := by
  simp only [neighbour?] at chosen
  split at chosen
  · cases chosen
  · exact Option.some.inj chosen ▸ ⟨‹_›, .inl rfl⟩
  · exact Option.some.inj chosen ▸ ⟨‹_›, .inr rfl⟩
  · rename_i below above
    split at chosen
    · exact Option.some.inj chosen ▸ ⟨below, .inl rfl⟩
    · split at chosen
      · exact Option.some.inj chosen ▸ ⟨above, .inr rfl⟩
      · split at chosen
        · split at chosen
          · exact Option.some.inj chosen ▸ ⟨below, .inl rfl⟩
          · exact Option.some.inj chosen ▸ ⟨above, .inr rfl⟩
        · exact Option.some.inj chosen ▸ ⟨above, .inr rfl⟩

theorem cast_div_bounds (num : Nat) {den : Nat} (positive : 0 < den) :
    ((num / den : Nat) : ℚ) ≤ num / den ∧ (num : ℚ) / den < (num / den : Nat) + 1 := by
  have nonneg : (0 : ℚ) ≤ num / den := by positivity
  rw [← Nat.floor_div_eq_div (K := ℚ)]
  exact ⟨Nat.floor_le nonneg, Nat.lt_floor_add_one _⟩

theorem exists_nearer_neighbour (tie : Tie) {passes : Decimal → Bool} {exponent : Int}
    (num : Nat) {den : Nat} (positive : 0 < den)
    (below : passes { coefficient := num / den, exponent } = true)
    (above : passes { coefficient := num / den + 1, exponent } = true) :
    ∃ found, neighbour? tie passes exponent num den = some { coefficient := found, exponent } ∧
      |(found : ℚ) - num / den| ≤ |((num / den : Nat) : ℚ) - num / den| ∧
      |(found : ℚ) - num / den| ≤ |((num / den + 1 : Nat) : ℚ) - num / den| := by
  have den_pos : (0 : ℚ) < den := Nat.cast_pos.2 positive
  obtain ⟨low, high⟩ := cast_div_bounds num positive
  have offBelow : |((num / den : Nat) : ℚ) - num / den| = num / den - (num / den : Nat) := by
    rw [abs_sub_comm, abs_of_nonneg (by linarith)]
  have offAbove : |((num / den + 1 : Nat) : ℚ) - num / den| =
      (num / den : Nat) + 1 - num / den := by
    rw [Nat.cast_add_one, abs_of_nonneg (by linarith)]
  have belowNearer (less : 2 * num ≤ (num / den + (num / den + 1)) * den) :
      |((num / den : Nat) : ℚ) - num / den| ≤ |((num / den + 1 : Nat) : ℚ) - num / den| := by
    have cast : (2 * num : ℚ) ≤ ((num / den : Nat) + ((num / den : Nat) + 1)) * den :=
      mod_cast less
    rw [← div_le_iff₀ den_pos, mul_div_assoc] at cast
    linarith
  have aboveNearer (less : (num / den + (num / den + 1)) * den ≤ 2 * num) :
      |((num / den + 1 : Nat) : ℚ) - num / den| ≤ |((num / den : Nat) : ℚ) - num / den| := by
    have cast : ((num / den : Nat) + ((num / den : Nat) + 1)) * den ≤ (2 * num : ℚ) :=
      mod_cast less
    rw [← le_div_iff₀ den_pos, mul_div_assoc] at cast
    linarith
  simp only [neighbour?, below, above]
  split
  · exact ⟨num / den, rfl, le_rfl, belowNearer (by omega)⟩
  · split
    · exact ⟨num / den + 1, rfl, aboveNearer (by omega), le_rfl⟩
    · -- Both are equally near.
      split
      · split
        · exact ⟨num / den, rfl, le_rfl, belowNearer (by omega)⟩
        · exact ⟨num / den + 1, rfl, aboveNearer (by omega), le_rfl⟩
      · exact ⟨num / den + 1, rfl, aboveNearer (by omega), le_rfl⟩

/-- If a neighbour passes, one is taken, and no neighbour that passes is nearer. -/
theorem exists_neighbour? (tie : Tie) {passes : Decimal → Bool} {exponent : Int}
    {num den coefficient : Nat} (positive : 0 < den)
    (pass : passes { coefficient, exponent } = true)
    (adjacent : coefficient = num / den ∨ coefficient = num / den + 1) :
    ∃ found, neighbour? tie passes exponent num den = some { coefficient := found, exponent } ∧
      |(found : ℚ) - num / den| ≤ |(coefficient : ℚ) - num / den| := by
  cases below : passes { coefficient := num / den, exponent } with
  | false =>
      have same : coefficient = num / den + 1 := adjacent.resolve_left fun same => by
        rw [same, below] at pass
        cases pass
      subst same
      exact ⟨num / den + 1, by simp only [neighbour?, below, pass], le_rfl⟩
  | true =>
      cases above : passes { coefficient := num / den + 1, exponent } with
      | false =>
          have same : coefficient = num / den := adjacent.resolve_right fun same => by
            rw [same, above] at pass
            cases pass
          subst same
          exact ⟨num / den, by simp only [neighbour?, below, above], le_rfl⟩
      | true =>
          obtain ⟨found, taken, nearer, nearer'⟩ :=
            exists_nearer_neighbour tie num positive below above
          rcases adjacent with rfl | rfl
          · exact ⟨found, taken, nearer⟩
          · exact ⟨found, taken, nearer'⟩

/-- Of the decimals of a grid that stand for the number none is nearer than the one taken. -/
theorem exists_onGrid? (number : Finite) (tie : Tie) {exponent : Int} {coefficient : Nat}
    (identifies : IsNearestRank number.rank (Decimal.value { coefficient, exponent })) :
    ∃ found, number.onGrid? tie exponent = some found ∧
      number.error found ≤ number.error { coefficient, exponent } := by
  have power : (0 : ℚ) < 10 ^ exponent := zpow_pos (by norm_num) _
  have quotient := number.overPower_eq exponent
  have positive := number.overPower_pos exponent
  rw [onGrid?]
  generalize number.overPower exponent = parts at quotient positive ⊢
  obtain ⟨num, den⟩ := parts
  obtain ⟨low, high⟩ := cast_div_bounds num positive
  -- A neighbour lies between the decimal and the number.
  obtain ⟨inner, adjacent, identifies', nearer⟩ : ∃ inner,
      (inner = num / den ∨ inner = num / den + 1) ∧
      IsNearestRank number.rank (Decimal.value { coefficient := inner, exponent }) ∧
      |(inner : ℚ) - num / den| ≤ |(coefficient : ℚ) - num / den| := by
    rcases Nat.lt_or_ge (num / den) coefficient with after | before
    · have after' : ((num / den + 1 : Nat) : ℚ) ≤ coefficient := Nat.cast_le.2 after
      have above : magnitude number.rank ≤ ((num / den + 1 : Nat) : ℚ) * 10 ^ exponent := by
        rw [← div_le_iff₀ power, ← quotient, Nat.cast_add_one]
        exact high.le
      refine ⟨num / den + 1, .inr rfl, identifies.between (.inr ⟨above, ?_⟩), ?_⟩
      · exact mul_le_mul_of_nonneg_right after' power.le
      · rw [Nat.cast_add_one] at after' ⊢
        rw [abs_of_nonneg (by linarith), abs_of_nonneg (by linarith)]
        linarith
    · have before' : (coefficient : ℚ) ≤ (num / den : Nat) := Nat.cast_le.2 before
      have below : ((num / den : Nat) : ℚ) * 10 ^ exponent ≤ magnitude number.rank := by
        rw [← le_div_iff₀ power, ← quotient]
        exact low
      refine ⟨num / den, .inl rfl, identifies.between (.inl ⟨?_, below⟩), ?_⟩
      · exact mul_le_mul_of_nonneg_right before' power.le
      · rw [abs_of_nonpos (by linarith), abs_of_nonpos (by linarith)]
        linarith
  have pass : number.isNearestTo { coefficient := inner, exponent } = true :=
    isNearestTo_iff.2 identifies'
  obtain ⟨found, taken, nearer'⟩ := exists_neighbour? tie positive pass adjacent
  refine ⟨{ coefficient := found, exponent }, taken, ?_⟩
  rw [error_eq, error_eq, ← quotient]
  exact mul_le_mul_of_nonneg_right (nearer'.trans nearer) power.le

/-! ## Grids of as many digits -/

/-- The exponent of the decimals of `count + 1` digits around the number. -/
def gridOf (number : Finite) (count : Nat) : Int :=
  number.leadingExponent - (count + 1 : Nat)

theorem pow_mul_zpow_gridOf (number : Finite) (count : Nat) :
    (10 : ℚ) ^ count * 10 ^ number.gridOf count = 10 ^ (number.leadingExponent - 1) := by
  have exponent : (count : Int) + number.gridOf count = number.leadingExponent - 1 := by
    rw [gridOf]
    omega
  rw [← zpow_natCast, ← zpow_add₀ (by norm_num), exponent]

theorem coefficient_onGrid?_le (positive : ¬ number.isZero = true) {tie : Tie} {count : Nat}
    (chosen : number.onGrid? tie (number.gridOf count) = some decimal) :
    decimal.coefficient ≤ 10 ^ (count + 1) := by
  have power : (0 : ℚ) < 10 ^ number.gridOf count := zpow_pos (by norm_num) _
  have bound : magnitude number.rank / 10 ^ number.gridOf count < 10 ^ (count + 1) := by
    rw [div_lt_iff₀ power, pow_succ', mul_assoc, pow_mul_zpow_gridOf,
      ← zpow_one_add₀ (by norm_num), add_sub_cancel]
    exact (leadingExponent_bounds positive).2
  obtain ⟨low, -⟩ := cast_div_bounds (number.overPower (number.gridOf count)).1
    (number.overPower_pos (number.gridOf count))
  rw [overPower_eq] at low
  have whole : (number.overPower (number.gridOf count)).1 /
      (number.overPower (number.gridOf count)).2 < 10 ^ (count + 1) := by
    exact_mod_cast low.trans_lt bound
  rw [onGrid?] at chosen
  rcases (neighbour?_eq_some chosen).2 with rfl | rfl
  · exact whole.le
  · exact whole

/-- Whatever stands for the number is no nearer than the decimal taken from the grid of as many
digits. -/
theorem exists_onGrid?_of_digitCount_le (positive : ¬ number.isZero = true) (tie : Tie)
    {count : Nat} {other : Decimal} (identifies : IsNearestRank number.rank other.value)
    (few : other.digitCount ≤ count + 1) :
    ∃ found, number.onGrid? tie (number.gridOf count) = some found ∧
      number.error found ≤ number.error other := by
  obtain ⟨coefficient, identifies', nearer⟩ : ∃ coefficient,
      IsNearestRank number.rank
        (Decimal.value { coefficient, exponent := number.gridOf count }) ∧
      number.error { coefficient, exponent := number.gridOf count } ≤ number.error other := by
    rcases lt_or_ge other.exponent (number.gridOf count) with finer | coarser
    · -- The decimal is too short to reach the least one of the grid, which the number does.
      have low := (leadingExponent_bounds positive).1
      have least : Decimal.value { coefficient := 10 ^ count, exponent := number.gridOf count } =
          10 ^ (number.leadingExponent - 1) := by
        rw [Decimal.value, Nat.cast_pow]
        exact number.pow_mul_zpow_gridOf count
      have below : other.value ≤ 10 ^ (number.leadingExponent - 1) := by
        refine other.value_lt.le.trans (zpow_le_zpow_right₀ (by norm_num) ?_)
        rw [gridOf] at finer
        omega
      refine ⟨10 ^ count, ?_, ?_⟩
      · rw [least]
        exact identifies.between (.inl ⟨below, low⟩)
      · rw [error, error, least, abs_of_nonpos (by linarith), abs_of_nonpos (by linarith)]
        linarith
    · obtain ⟨zeros, same⟩ := Int.le.dest coarser
      have value : Decimal.value
          { coefficient := other.coefficient * 10 ^ zeros, exponent := number.gridOf count } =
          other.value := by
        rw [Decimal.value_mul_pow_ten, same]
      refine ⟨other.coefficient * 10 ^ zeros, ?_, ?_⟩
      · rw [value]
        exact identifies
      · rw [error, error, value]
  obtain ⟨found, taken, nearer'⟩ := number.exists_onGrid? tie identifies'
  exact ⟨found, taken, nearer'.trans nearer⟩

/-- The grid of seventeen digits is fine enough for every double. -/
theorem exists_on_seventeenth (positive : ¬ number.isZero = true) :
    ∃ coefficient, IsNearestRank number.rank
      (Decimal.value { coefficient, exponent := number.gridOf 16 }) := by
  have power : (0 : ℚ) < 10 ^ number.gridOf 16 := zpow_pos (by norm_num) _
  have low : 10 ^ 16 * 10 ^ number.gridOf 16 ≤ magnitude number.rank := by
    rw [pow_mul_zpow_gridOf]
    exact (leadingExponent_bounds positive).1
  have nonneg : 0 ≤ magnitude number.rank / 10 ^ number.gridOf 16 :=
    div_nonneg ((mul_nonneg (by norm_num) power.le).trans low) power.le
  -- The nearest decimal of the grid is off by half a step.
  obtain ⟨coefficient, half⟩ : ∃ coefficient : Nat,
      |(coefficient : ℚ) - magnitude number.rank / 10 ^ number.gridOf 16| ≤ 1 / 2 := by
    have below := Nat.floor_le (add_nonneg nonneg (show (0 : ℚ) ≤ 1 / 2 by norm_num))
    have above := Nat.lt_floor_add_one (magnitude number.rank / 10 ^ number.gridOf 16 + 1 / 2)
    refine ⟨⌊magnitude number.rank / 10 ^ number.gridOf 16 + 1 / 2⌋₊, abs_le.2 ?_⟩
    constructor <;> linarith
  refine ⟨coefficient, isNearestRank_of_near ?_⟩
  show 2 ^ 54 * number.error { coefficient, exponent := number.gridOf 16 } < _
  rw [error_eq]
  calc 2 ^ 54 * (|(coefficient : ℚ) - magnitude number.rank / 10 ^ number.gridOf 16| *
        10 ^ number.gridOf 16)
      ≤ 2 ^ 54 * (1 / 2 * 10 ^ number.gridOf 16) := by gcongr
    _ < 10 ^ 16 * 10 ^ number.gridOf 16 := by
        rw [← mul_assoc]
        exact mul_lt_mul_of_pos_right (by norm_num) power
    _ ≤ magnitude number.rank := low

/-! ## The search -/

theorem findSome?_range_eq_some {α : Type} {search : Nat → Option α} {limit : Nat} {found : α}
    (hit : (List.range limit).findSome? search = some found) :
    ∃ index < limit, search index = some found ∧ ∀ earlier < index, search earlier = none := by
  induction limit with
  | zero => cases hit
  | succ limit ih =>
      rw [List.range_succ, List.findSome?_append, Option.or_eq_some_iff] at hit
      rcases hit with before | ⟨missed, last⟩
      · obtain ⟨index, inside, found, first⟩ := ih before
        exact ⟨index, Nat.lt_succ_of_lt inside, found, first⟩
      · rw [List.findSome?_singleton] at last
        rw [List.findSome?_eq_none_iff] at missed
        exact ⟨limit, Nat.lt_succ_self limit, last, fun earlier less =>
          missed earlier (List.mem_range.2 less)⟩

/-- The shortest decimal comes from the first grid on which the search has a hit. -/
theorem exists_shortest_eq (positive : ¬ number.isZero = true) (tie : Tie) :
    ∃ count < 17, ∃ found, number.onGrid? tie (number.gridOf count) = some found ∧
      number.shortest tie = found.strip ∧
      ∀ earlier < count, number.onGrid? tie (number.gridOf earlier) = none := by
  obtain ⟨coefficient, identifies⟩ := exists_on_seventeenth positive
  obtain ⟨last, taken, -⟩ := number.exists_onGrid? tie identifies
  have hits : ((List.range 17).findSome? fun count =>
      number.onGrid? tie (number.gridOf count)).isSome = true := by
    rw [List.findSome?_isSome_iff]
    exact ⟨16, List.mem_range.2 (by decide), by rw [taken, Option.isSome_some]⟩
  obtain ⟨found, hit⟩ := Option.isSome_iff_exists.1 hits
  obtain ⟨count, inside, chosen, first⟩ := findSome?_range_eq_some hit
  refine ⟨count, inside, found, chosen, ?_, first⟩
  have grids : ((List.range 17).map number.gridOf).findSome? (number.onGrid? tie) =
      some found := by
    rw [List.findSome?_map, Function.comp_def]
    exact hit
  rw [shortest, if_neg positive]
  change Decimal.strip
    ((((List.range 17).map number.gridOf).findSome? (number.onGrid? tie)).getD number.exact) = _
  rw [grids, Option.getD_some]

/-- The decimal is a shortest one of a number, if it has no sign. -/
structure IsShortest (number : Finite) (decimal : Decimal) : Prop where
  identifies : IsNearestRank number.rank decimal.value
  /-- No decimal of which that is true has fewer digits. -/
  fewest {other : Decimal} (identifies' : IsNearestRank number.rank other.value) :
    decimal.digitCount ≤ other.digitCount
  nearest {other : Decimal} (identifies' : IsNearestRank number.rank other.value)
    (few : other.digitCount ≤ decimal.digitCount) : number.error decimal ≤ number.error other

theorem isShortest_zero (zero : number.isZero = true) :
    number.IsShortest { coefficient := 0, exponent := 0 } := by
  have value : Decimal.value { coefficient := 0, exponent := 0 } = magnitude number.rank := by
    rw [beq_iff_eq.1 zero, magnitude_zero, Decimal.value, Nat.cast_zero, zero_mul]
  constructor
  · rw [value]
    exact isNearestRank_magnitude number.rank
  · intro other _
    refine Nat.le_trans ?_ other.digitCount_pos
    exact (Numeral.length_digits_le_iff (by decide)).2 (by decide)
  · intro other _ _
    rw [error, value, sub_self, abs_zero]
    exact abs_nonneg _

/-- The search finds a shortest decimal of every finite double. -/
theorem isShortest_shortest (number : Finite) (tie : Tie) :
    number.IsShortest (number.shortest tie) := by
  by_cases zero : number.isZero = true
  · rw [shortest, if_pos zero]
    exact isShortest_zero zero
  · obtain ⟨count, inside, found, chosen, shortest, first⟩ := exists_shortest_eq zero tie
    have few : (number.shortest tie).digitCount ≤ count + 1 := by
      rw [shortest]
      exact Decimal.digitCount_strip_le (coefficient_onGrid?_le zero chosen)
    -- On a coarser grid there is nothing, so whatever stands for the number has more digits.
    have fewest {other : Decimal} (identifies : IsNearestRank number.rank other.value) :
        count + 1 ≤ other.digitCount := by
      refine Nat.le_of_not_lt fun less => ?_
      have positive := other.digitCount_pos
      have digits : other.digitCount ≤ other.digitCount - 1 + 1 := by omega
      obtain ⟨hit, taken, -⟩ := exists_onGrid?_of_digitCount_le zero tie identifies digits
      rw [first (other.digitCount - 1) (by omega)] at taken
      cases taken
    constructor
    · rw [onGrid?] at chosen
      have passed := (neighbour?_eq_some chosen).1
      rw [shortest, Decimal.value_strip]
      exact isNearestTo_iff.1 passed
    · intro other identifies
      exact few.trans (fewest identifies)
    · intro other identifies less
      obtain ⟨hit, taken, nearer⟩ :=
        exists_onGrid?_of_digitCount_le zero tie identifies (less.trans few)
      rw [chosen] at taken
      cases taken
      rw [shortest, error, Decimal.value_strip]
      exact nearer

theorem coefficient_shortest_ne_zero (positive : ¬ number.isZero = true) (tie : Tie) :
    (number.shortest tie).coefficient ≠ 0 := by
  intro zero
  have identifies := (number.isShortest_shortest tie).identifies
  rw [Decimal.value, zero, Nat.cast_zero, zero_mul, ← magnitude_zero] at identifies
  exact positive (beq_iff_eq.2 (identifies.unique (isNearestRank_magnitude 0)))

/-- The shortest decimal does not end in zero. -/
theorem coefficient_shortest_mod_ne_zero (positive : ¬ number.isZero = true) (tie : Tie) :
    (number.shortest tie).coefficient % 10 ≠ 0 := by
  have nonzero := coefficient_shortest_ne_zero positive tie
  obtain ⟨count, inside, found, chosen, shortest, first⟩ := exists_shortest_eq positive tie
  rw [shortest] at nonzero ⊢
  have dropped := found.coefficient_strip_le
  exact Decimal.coefficient_strip_mod_ne_zero (by omega)

end Double.Finite

end ConditionalStyles
