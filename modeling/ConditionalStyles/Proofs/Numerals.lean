import Mathlib.Algebra.Group.Nat.Defs
import Mathlib.Data.List.Induction
import ConditionalStyles.Numeral

/-!
# Numerals

The digits of a number, taken as a list: what a list stands for that is put together from two,
what zeros at either end do, and how many digits a number has.
-/

namespace ConditionalStyles

namespace Numeral

/-! ## Numerals in parts -/

theorem value_append (base : Nat) (ds ds' : List Nat) :
    value base (ds ++ ds') = value base ds * base ^ ds'.length + value base ds' := by
  induction ds' using List.reverseRecOn with
  | nil => rw [List.append_nil, value_nil, List.length_nil, Nat.pow_zero, Nat.mul_one, Nat.add_zero]
  | append_singleton ds' digit ih =>
      rw [← List.append_assoc, value_concat, ih, value_concat, List.length_append,
        List.length_singleton, Nat.pow_succ, Nat.add_mul, Nat.mul_assoc, Nat.add_assoc]

theorem ofChars_append (base : Nat) (first second : List Char) :
    ofChars base (first ++ second) =
      ofChars base first * base ^ second.length + ofChars base second := by
  rw [ofChars, List.map_append, value_append, List.length_map]
  rfl

theorem ofChars_replicate_zero (count : Nat) : ofChars 10 (List.replicate count '0') = 0 := by
  induction count with
  | zero => rfl
  | succ count ih =>
      rw [List.replicate_succ', ofChars_append, ih, Nat.zero_mul]
      rfl

theorem ofChars_zeros_append (count : Nat) (digits : List Char) :
    ofChars 10 (List.replicate count '0' ++ digits) = ofChars 10 digits := by
  rw [ofChars_append, ofChars_replicate_zero, Nat.zero_mul, Nat.zero_add]

theorem ofChars_append_zeros (digits : List Char) (count : Nat) :
    ofChars 10 (digits ++ List.replicate count '0') = ofChars 10 digits * 10 ^ count := by
  rw [ofChars_append, ofChars_replicate_zero, List.length_replicate, Nat.add_zero]

/-! ## The number of digits -/

theorem length_digits_pos (base number : Nat) : 0 < (digits base number).length := by
  simpa [chars, List.length_pos_iff] using chars_ne_nil base number

theorem length_digits_le_iff {base number : Nat} (valid : 2 ≤ base) {count : Nat} :
    (digits base number).length ≤ count + 1 ↔ number < base ^ (count + 1) := by
  fun_induction digits base number generalizing count with
  | case1 number small =>
      have below : number < base := by omega
      have power : base ≤ base ^ (count + 1) := Nat.le_self_pow (Nat.succ_ne_zero count) base
      exact iff_of_true (Nat.le_add_left 1 count) (Nat.lt_of_lt_of_le below power)
  | case2 number large ih =>
      rw [List.length_append, List.length_singleton, Nat.add_le_add_iff_right]
      cases count with
      | zero =>
          have nonempty := length_digits_pos base (number / base)
          rw [Nat.zero_add, Nat.pow_one]
          omega
      | succ count =>
          rw [ih, Nat.div_lt_iff_lt_mul (by omega), ← Nat.pow_succ]

theorem lt_pow_length_digits {base : Nat} (valid : 2 ≤ base) (number : Nat) :
    number < base ^ (digits base number).length := by
  obtain ⟨count, length⟩ :=
    Nat.exists_eq_succ_of_ne_zero (Nat.ne_of_gt (length_digits_pos base number))
  rw [length, Nat.succ_eq_add_one]
  exact (length_digits_le_iff valid).1 (Nat.le_of_eq length)

/-- The number of digits encloses a positive number between two powers of the base. -/
theorem exists_length_digits {base number : Nat} (valid : 2 ≤ base) (nonzero : number ≠ 0) :
    ∃ count, (digits base number).length = count + 1 ∧ base ^ count ≤ number ∧
      number < base ^ (count + 1) := by
  obtain ⟨count, length⟩ :=
    Nat.exists_eq_succ_of_ne_zero (Nat.ne_of_gt (length_digits_pos base number))
  refine ⟨count, length, ?_, (length_digits_le_iff valid).1 (Nat.le_of_eq length)⟩
  refine Nat.le_of_not_lt fun less => ?_
  cases count with
  | zero =>
      rw [Nat.pow_zero] at less
      omega
  | succ previous =>
      have fewer := (length_digits_le_iff valid).2 less
      omega

/-! ## Decimal digits -/

theorem isDigit_of_mem_chars {number : Nat} {character : Char}
    (mem : character ∈ chars 10 number) : character.isDigit = true := by
  have all : ∀ digit < 10, (digitChar digit).isDigit = true := by decide
  obtain ⟨digit, digitMem, rfl⟩ := List.mem_map.1 mem
  exact all digit (lt_of_mem_digits (by decide) digitMem)

theorem ofChars_concat_mod_ne_zero (digits : List Char) {last : Char}
    (digit : last.isDigit = true) (notZero : last ≠ '0') :
    ofChars 10 (digits ++ [last]) % 10 ≠ 0 := by
  have bounds : 48 ≤ last.toNat ∧ last.toNat ≤ 57 := by
    simpa [Char.isDigit, UInt32.le_iff_toNat_le] using digit
  obtain ⟨remainder, small, rfl⟩ : ∃ remainder < 10, digitChar remainder = last := by
    refine ⟨last.toNat - 48, by omega, ?_⟩
    have offset : '0'.toNat + (last.toNat - 48) = last.toNat := by
      show 48 + (last.toNat - 48) = last.toNat
      omega
    rw [digitChar, if_pos (by omega), offset, Char.ofNat_toNat]
  have positive : remainder ≠ 0 := by
    rintro rfl
    exact notZero rfl
  have read : ofChars 10 [digitChar remainder] = remainder := by
    simp [ofChars, value, digit?_digitChar (show 10 ≤ 36 by decide) small]
  rw [ofChars_append, read, List.length_singleton]
  omega

/-- A number that is not a multiple of ten does not end in zero. -/
theorem getLast?_chars_ne {number : Nat} (rest : number % 10 ≠ 0) :
    (chars 10 number).getLast? ≠ some '0' := by
  have all : ∀ digit < 10, digit ≠ 0 → digitChar digit ≠ '0' := by decide
  have last : (chars 10 number).getLast? = some (digitChar (number % 10)) := by
    rw [chars, digits]
    split
    · rename_i small
      rw [Nat.mod_eq_of_lt (small.resolve_right (by decide)), List.map_singleton,
        List.getLast?_singleton]
    · rw [List.map_append, List.map_singleton, List.getLast?_concat]
  rw [last]
  exact fun zero => all _ (Nat.mod_lt number (by decide)) rest (Option.some.inj zero)

end Numeral

end ConditionalStyles
