import ConditionalStyles.Proofs.PrintedNumbers
import ConditionalStyles.Style.Rendering

/-!
# Plain numbers

Finite numbers are rendered without loss.  Every layout that drops the sign of zero writes
the same text for two numbers only if they are equal, since the text is read as the number it
was written for.  The layout of CSS numbers writes the shortest decimal with neither a power
of ten nor superfluous zeros, however large or small the number is.
-/

namespace ConditionalStyles

namespace Json.Literal

variable {literal : Literal}

theorem IsPlain.fraction_eq_none_iff (plain : literal.IsPlain) (proper : literal.Proper) :
    literal.fraction = none ↔ ∃ whole : Nat, literal.spelled.value = whole := by
  obtain ⟨negative, whole, fraction, exponent⟩ := literal
  obtain ⟨rfl, ending⟩ := plain
  cases fraction with
  | none =>
      refine iff_of_true rfl ⟨Numeral.ofChars 10 whole, ?_⟩
      simp [spelled, power, Decimal.value]
  | some digits =>
      refine iff_of_false (Option.some_ne_none digits) ?_
      rintro ⟨number, same⟩
      have run := proper.fraction digits rfl
      obtain ⟨init, last, rfl⟩ := (List.eq_nil_or_concat digits).resolve_left run.nonempty
      rw [List.concat_eq_append] at *
      have notZero : last ≠ '0' := by
        rintro rfl
        exact ending _ rfl List.getLast?_concat
      -- A whole number would have a coefficient with a zero for the last digit of the fraction.
      have shifted := Decimal.value_mul_pow_ten number (init.length + 1) (-(init.length + 1 : Nat))
      have power : (10 : ℚ) ^ (-(init.length + 1 : Nat) : Int) ≠ 0 := zpow_ne_zero _ (by norm_num)
      have coefficient : Numeral.ofChars 10 (whole ++ (init ++ [last])) =
          number * 10 ^ (init.length + 1) := by
        have scaled : (Numeral.ofChars 10 (whole ++ (init ++ [last])) : ℚ) *
            10 ^ (-(init.length + 1 : Nat) : Int) = number := by
          simpa [spelled, Literal.power, Decimal.value] using same
        rw [neg_add_cancel, Decimal.value, Decimal.value, zpow_zero, mul_one, ← scaled] at shifted
        exact_mod_cast (mul_right_cancel₀ power shifted).symm
      have digit := run.digit last (List.mem_append_right init List.mem_cons_self)
      refine Numeral.ofChars_concat_mod_ne_zero (whole ++ init) digit notZero ?_
      rw [List.append_assoc, coefficient, Nat.pow_succ, ← Nat.mul_assoc, Nat.mul_mod_left]

end Json.Literal

namespace Double

/-! ## Reading a number back -/

/-- The double nearest to the number that a text spells; none if it does not spell one. -/
def ofText? (text : String) : Option Double :=
  match Json.literal? text.toList with
  | some (literal, []) => some (.ofDecimal literal.negative literal.spelled)
  | _ => none

theorem ofText?_chars {literal : Json.Literal} (proper : literal.Proper) :
    ofText? (String.ofList literal.chars) = some (.ofDecimal literal.negative literal.spelled) := by
  have ends : Json.EndsNumber [] := nofun
  have read := Json.Literal.literal?_chars proper ends
  rw [List.append_nil] at read
  rw [ofText?, String.toList_ofList, read]

namespace Finite

variable {first second : Finite}

/-- The number, without its sign if it is zero. -/
def dropZeroSign (number : Finite) : Finite :=
  { number with negative := number.negative && !number.isZero }

theorem dropZeroSign_of_isZero {number : Finite} (zero : number.isZero = true) :
    number.dropZeroSign = Finite.zero false := by
  obtain ⟨negative, rank, rank_lt⟩ := number
  have rank_eq : rank = 0 := beq_iff_eq.1 zero
  subst rank_eq
  simp [dropZeroSign, Finite.zero, isZero]

theorem dropZeroSign_of_not_isZero {number : Finite} (positive : ¬ number.isZero = true) :
    number.dropZeroSign = number := by
  simp [dropZeroSign, positive]

theorem signedUnits_eq_zero_iff {number : Finite} :
    number.signedUnits = 0 ↔ number.isZero = true := by
  have units : number.isZero = true ↔ number.units = 0 := by
    constructor
    · intro zero
      rw [Finite.units, beq_iff_eq.1 zero, unitsOfRank_zero]
    · intro zero
      by_contra positive
      exact (units_pos positive).ne' zero
  rw [units, signedUnits]
  split_ifs <;> omega

theorem signedUnits_dropZeroSign (number : Finite) :
    number.dropZeroSign.signedUnits = number.signedUnits := by
  by_cases zero : number.isZero = true
  · rw [dropZeroSign_of_isZero zero, signedUnits_eq_zero_iff.2 zero]
    exact signedUnits_eq_zero_iff.2 rfl
  · rw [dropZeroSign_of_not_isZero zero]

theorem eq_of_signedUnits_eq (positive : ¬ first.isZero = true)
    (same : first.signedUnits = second.signedUnits) : first = second := by
  have units_pos := units_pos positive
  have parts : first.negative = second.negative ∧ first.units = second.units := by
    rw [signedUnits, signedUnits] at same
    split_ifs at same with below below' below'
    · exact ⟨below.trans below'.symm, by omega⟩
    · omega
    · omega
    · exact ⟨(Bool.eq_false_iff.2 below).trans (Bool.eq_false_iff.2 below').symm, by omega⟩
  obtain ⟨negative, rank, rank_lt⟩ := first
  obtain ⟨negative', rank', rank_lt'⟩ := second
  obtain ⟨rfl, units⟩ := parts
  cases strictMono_unitsOfRank.injective units
  rfl

theorem dropZeroSign_eq_iff :
    first.dropZeroSign = second.dropZeroSign ↔ first.signedUnits = second.signedUnits := by
  constructor
  · intro same
    rw [← signedUnits_dropZeroSign first, same, signedUnits_dropZeroSign]
  · intro same
    have zeros : first.isZero = true ↔ second.isZero = true := by
      rw [← signedUnits_eq_zero_iff, same, signedUnits_eq_zero_iff]
    by_cases zero : first.isZero = true
    · rw [dropZeroSign_of_isZero zero, dropZeroSign_of_isZero (zeros.1 zero)]
    · rw [eq_of_signedUnits_eq zero same]

end Finite

end Double

namespace Layout

variable {layout : Layout}

/-- A number is read back from its text, wherever the layout puts the point. -/
theorem ofText?_text (unsigned : layout.signedZero = false) (number : Double.Finite) :
    Double.ofText? (layout.text number) = some (.finite number.dropZeroSign) := by
  obtain ⟨literal, text⟩ := Json.Literal.exists_isTextOf layout number
  have written : layout.text number = String.ofList literal.chars := by
    rw [text.chars, String.ofList_toList]
  have negative := text.negative
  rw [unsigned, Bool.false_or] at negative
  rw [written, Double.ofText?_chars text.proper, Double.ofDecimal, text.rank, negative,
    Double.ofRank_of_lt number.rank_lt]
  rfl

theorem text_dropZeroSign (unsigned : layout.signedZero = false) (number : Double.Finite) :
    layout.text number.dropZeroSign = layout.text number := by
  by_cases zero : number.isZero = true
  · have zero' : number.dropZeroSign.isZero = true := zero
    simp only [text, magnitude, unsigned, zero, zero', if_true, Bool.not_true,
      Bool.or_self, Bool.and_false]
  · rw [Double.Finite.dropZeroSign_of_not_isZero zero]

theorem text_eq_iff (unsigned : layout.signedZero = false) {first second : Double.Finite} :
    layout.text first = layout.text second ↔ first.signedUnits = second.signedUnits := by
  rw [← Double.Finite.dropZeroSign_eq_iff]
  constructor
  · intro same
    have read := ofText?_text unsigned first
    rw [same, ofText?_text unsigned second] at read
    exact (Double.finite.inj (Option.some.inj read)).symm
  · intro same
    rw [← text_dropZeroSign unsigned first, same, text_dropZeroSign unsigned]

end Layout

/-! ## Numbers in CSS -/

/-- A finite number is written in full: a plain literal, with a minus sign if it is below zero
and with a fraction if it is not whole, that spells a shortest decimal.  The text is read as
the number, no other number has it, and a property with units adds nothing but the unit. -/
theorem plain_numbers_are_lossless (number : Double.Finite) :
    (∃ (literal : Json.Literal) (decimal : Decimal),
      (Double.finite number).text = String.ofList literal.chars ∧
      literal.Proper ∧ literal.IsPlain ∧
      literal.negative = (number.negative && !number.isZero) ∧
      (literal.fraction = none ↔ ∃ whole : Nat, decimal.value = whole) ∧
      literal.spelled.value = decimal.value ∧ number.IsShortest decimal) ∧
    Double.ofText? (Double.finite number).text = some (.finite number.dropZeroSign) ∧
    (∀ other : Double.Finite, (Double.finite number).text = (Double.finite other).text ↔
      number.signedUnits = other.signedUnits) ∧
    ∀ property, isUnitless property = false →
      Renderer.pixels property (.number (.finite number)) =
        some ((Double.finite number).text ++ "px") := by
  have layout (number : Double.Finite) :
      (Double.finite number).text = Double.plainLayout.text number := rfl
  refine ⟨?_, ?_, ?_, ?_⟩
  · obtain ⟨literal, text⟩ := Json.Literal.exists_isTextOf Double.plainLayout number
    have plain : literal.IsPlain := text.plain rfl fun _ => rfl
    refine ⟨literal, number.shortest .up, ?_, text.proper, plain, ?_, ?_, text.value,
      number.isShortest_shortest .up⟩
    · rw [layout, text.chars, String.ofList_toList]
    · rw [text.negative]
      exact congrArg (number.negative && ·) (Bool.false_or _)
    · have value : literal.spelled.value = (number.shortest .up).value := text.value
      rw [plain.fraction_eq_none_iff text.proper, value]
  · rw [layout]
    exact Layout.ofText?_text rfl number
  · intro other
    rw [layout, layout]
    exact Layout.text_eq_iff rfl
  · intro property units
    simp only [Renderer.pixels, units, Bool.false_eq_true, if_false]

theorem plain_tenth_is_lossless :
    isUnitless "width" = false ∧
      Double.ofText? "-0.1" = some (.ofRank true 4591870180066957722) ∧
      Renderer.pixels "width" (.number (.ofRank true 4591870180066957722)) = some "-0.1px" := by
  have units : isUnitless "width" = false := by decide +kernel
  have finite : Double.ofRank true 4591870180066957722 =
      .finite ⟨true, 4591870180066957722, by decide⟩ := Double.ofRank_of_lt (by decide)
  have text : (Double.finite ⟨true, 4591870180066957722, by decide⟩).text = "-0.1" := by
    decide +kernel
  obtain ⟨-, read, -, pixels⟩ :=
    plain_numbers_are_lossless ⟨true, 4591870180066957722, by decide⟩
  rw [text] at read pixels
  rw [finite]
  exact ⟨units, read, pixels "width" units⟩

end ConditionalStyles
