import Mathlib.Data.Nat.ModEq
import ConditionalStyles.Identifier
import ConditionalStyles.Proofs.Numerals

/-!
# Hashes as numerals

The hash of a text is a number below `2 ^ 31`, written in base 36.  The number is the
polynomial in 31 that has the code units of the text as its coefficients: thirty-two bits
may overflow in the shift and in the subtraction, but the mask keeps only bits that do not
depend on the ones lost there.  The numeral is the one of the number, place by place.
-/

namespace ConditionalStyles

/-! ## Numerals place by place -/

namespace Numeral

def alphabet : List Char :=
  "0123456789abcdefghijklmnopqrstuvwxyz".toList

/-- The numeral of a number in lower case, without superfluous zeros.  The last character
has place 0. -/
structure IsNumeral (base number : Nat) (characters : List Char) : Prop where
  nonempty : characters ≠ []
  leading : characters.head? = some '0' → characters = ['0']
  /-- Every place holds the digit that the number has there, and the alphabet has that digit. -/
  placed : ∀ place < characters.length, ∃ digit,
    alphabet[number / base ^ place % base]? = some digit ∧
      characters.reverse[place]? = some digit
  whole : number < base ^ characters.length

variable {base number : Nat}

theorem getElem?_alphabet {digit : Nat} (small : digit < 36) :
    alphabet[digit]? = some (digitChar digit) := by
  have all : ∀ digit < 36, alphabet[digit]? = some (digitChar digit) := by decide
  exact all digit small

theorem getElem?_reverse_digits (valid : 2 ≤ base) {place : Nat}
    (inside : place < (digits base number).length) :
    (digits base number).reverse[place]? = some (number / base ^ place % base) := by
  fun_induction digits base number generalizing place with
  | case1 number small =>
      obtain rfl : place = 0 := by simpa using inside
      have below : number < base := by omega
      simp [Nat.mod_eq_of_lt below]
  | case2 number large ih =>
      rw [List.reverse_append, List.reverse_singleton, List.singleton_append]
      cases place with
      | zero => simp
      | succ place =>
          rw [List.length_append, List.length_singleton] at inside
          rw [List.getElem?_cons_succ, ih (by omega), Nat.div_div_eq_div_mul, Nat.pow_succ,
            Nat.mul_comm base]

theorem isNumeral_chars (valid : 2 ≤ base) (base_le : base ≤ 36) (number : Nat) :
    IsNumeral base number (chars base number) where
  nonempty := chars_ne_nil base number
  leading := by
    intro zero
    by_cases nonzero : number = 0
    · rw [nonzero, chars, digits, if_pos (by omega)]
      rfl
    · obtain ⟨first, rest, same, leading⟩ := chars_eq_cons valid base_le nonzero
      rw [same] at zero
      exact absurd (Option.some.inj zero) leading
  placed := by
    intro place inside
    rw [chars, List.length_map] at inside
    have digit : number / base ^ place % base < 36 :=
      Nat.lt_of_lt_of_le (Nat.mod_lt _ (by omega)) base_le
    refine ⟨_, getElem?_alphabet digit, ?_⟩
    rw [chars, ← List.map_reverse, List.getElem?_map, getElem?_reverse_digits valid inside,
      Option.map_some]
  whole := by
    rw [chars, List.length_map]
    exact lt_pow_length_digits valid number

end Numeral

/-! ## Code units -/

namespace Text

/-- Characters and their code units: the code point itself below `0x10000`, and above a
surrogate pair, which has ten bits of the rest in either unit. -/
inductive Encodes : List Char → List UInt16 → Prop where
  | nil : Encodes [] []
  | basic {character : Char} {rest : List Char} {unit : UInt16} {units : List UInt16}
      (below : character.toNat < 0x10000) (same : unit.toNat = character.toNat)
      (tail : Encodes rest units) : Encodes (character :: rest) (unit :: units)
  | pair {character : Char} {rest : List Char} {lead trail : UInt16} {units : List UInt16}
      (leads : 0xD800 ≤ lead.toNat ∧ lead.toNat < 0xDC00)
      (trails : 0xDC00 ≤ trail.toNat ∧ trail.toNat < 0xE000)
      (same : character.toNat =
        0x10000 + (lead.toNat - 0xD800) * 0x400 + (trail.toNat - 0xDC00))
      (tail : Encodes rest units) : Encodes (character :: rest) (lead :: trail :: units)

theorem encodes_cons (character : Char) {rest : List Char} {units : List UInt16}
    (tail : Encodes rest units) :
    Encodes (character :: rest) (unitsOfChar character ++ units) := by
  have valid : character.toNat < 0xD800 ∨
      0xDFFF < character.toNat ∧ character.toNat < 0x110000 := character.valid
  rw [unitsOfChar]
  split
  · rename_i below
    rw [pairBase] at below
    refine .basic below ?_ tail
    rw [UInt16.toNat_ofNat']
    omega
  · rename_i beyond
    simp only [pairBase] at beyond
    refine .pair ?_ ?_ ?_ tail <;>
      simp only [pairBase, leadBase, trailBase, UInt16.toNat_ofNat'] <;> omega

theorem encodes_units (text : String) : Encodes text.toList (units text) := by
  rw [units]
  induction text.toList with
  | nil => exact .nil
  | cons character rest ih => exact encodes_cons character ih

end Text

/-! ## Hashes as polynomials -/

namespace Identifier

/-- Code units as the coefficients of a polynomial in 31, the first one with the highest
power. -/
def polynomial : List UInt16 → Nat
  | [] => 0
  | unit :: rest => unit.toNat * 31 ^ rest.length + polynomial rest

theorem polynomial_concat (units : List UInt16) (unit : UInt16) :
    polynomial (units ++ [unit]) = 31 * polynomial units + unit.toNat := by
  induction units with
  | nil => simp [polynomial]
  | cons first rest ih =>
      rw [List.cons_append, polynomial, ih, polynomial, List.length_append,
        List.length_singleton, Nat.pow_succ, ← Nat.add_assoc, Nat.mul_add]
      congr 2
      rw [← Nat.mul_assoc, Nat.mul_comm]

/-- The bits that the shift drops have no part in 31 bits. -/
theorem shift_modEq (hash : UInt32) :
    (hash <<< 5).toNat ≡ 32 * hash.toNat [MOD 2 ^ 31] := by
  have shifted : (hash <<< 5).toNat = hash.toNat * 2 ^ 5 % 2 ^ 32 := by
    rw [UInt32.toNat_shiftLeft, Nat.shiftLeft_eq]
    rfl
  rw [Nat.ModEq, shifted]
  omega

/-- Neither has what the subtraction borrows. -/
theorem shift_sub_modEq (hash : UInt32) :
    (hash <<< 5 - hash).toNat ≡ 31 * hash.toNat [MOD 2 ^ 31] := by
  have shifted := shift_modEq hash
  have small := hash.toNat_lt
  have small' := (hash <<< 5).toNat_lt
  rw [Nat.ModEq] at shifted ⊢
  rw [UInt32.toNat_sub]
  omega

/-- One more unit is one more step of the polynomial, in exact arithmetic. -/
theorem toNat_addUnit (hash : UInt32) (unit : UInt16) :
    (addUnit hash unit).toNat = (31 * hash.toNat + unit.toNat) % 2 ^ 31 := by
  have moved := shift_sub_modEq hash
  have masked (number : UInt32) : (number &&& mask).toNat = number.toNat % 2 ^ 31 := by
    rw [UInt32.toNat_and]
    exact Nat.and_two_pow_sub_one_eq_mod number.toNat 31
  rw [Nat.ModEq] at moved
  rw [addUnit, masked, UInt32.toNat_add, UInt16.toNat_toUInt32]
  omega

/-- The hash of code units is their polynomial, in 31 bits. -/
theorem toNat_foldl_addUnit (units : List UInt16) :
    (units.foldl addUnit 0).toNat = polynomial units % 2 ^ 31 := by
  induction units using List.reverseRecOn with
  | nil => rfl
  | append_singleton units unit ih =>
      rw [List.foldl_append, List.foldl_cons, List.foldl_nil, toNat_addUnit, ih,
        polynomial_concat]
      omega

/-- A hash is the numeral in base 36, of at most six digits, of the polynomial that has the
code units of the text as coefficients, in 31 bits: one unit for a character of the basic
plane, and a surrogate pair for any other one.  Every step of the computation is exact
in 31 bits, although it is made in 32, and the number is read back from the numeral. -/
theorem hash_is_numeral_of_polynomial (text : String) :
    Text.Encodes text.toList (Text.units text) ∧
    (∀ (hash : UInt32) (unit : UInt16),
      (hash <<< 5).toNat ≡ 32 * hash.toNat [MOD 2 ^ 31] ∧
        (hash <<< 5 - hash).toNat ≡ 31 * hash.toNat [MOD 2 ^ 31] ∧
        (addUnit hash unit).toNat = (31 * hash.toNat + unit.toNat) % 2 ^ 31) ∧
    (∀ count, (((Text.units text).take count).foldl addUnit 0).toNat =
      polynomial ((Text.units text).take count) % 2 ^ 31) ∧
    Numeral.IsNumeral 36 (polynomial (Text.units text) % 2 ^ 31) (hash text).toList ∧
    (hash text).toList.length ≤ 6 ∧
    Numeral.ofChars 36 (hash text).toList = (hashNumber text).toNat := by
  have number : (hashNumber text).toNat = polynomial (Text.units text) % 2 ^ 31 :=
    toNat_foldl_addUnit (Text.units text)
  have characters : (hash text).toList = Numeral.chars 36 (hashNumber text).toNat := by
    rw [hash, Numeral.text, String.toList_ofList]
  refine ⟨Text.encodes_units text,
    fun hash unit => ⟨shift_modEq hash, shift_sub_modEq hash, toNat_addUnit hash unit⟩,
    fun count => toNat_foldl_addUnit _, ?_, ?_, ?_⟩
  · rw [characters, number]
    exact Numeral.isNumeral_chars (by decide) (Nat.le_refl 36) _
  · have small : (hashNumber text).toNat < 36 ^ (5 + 1) := by omega
    rw [characters, Numeral.chars, List.length_map]
    exact (Numeral.length_digits_le_iff (by decide)).2 small
  · rw [characters, Numeral.ofChars_chars (by decide) (Nat.le_refl 36)]

/-- A character beyond the basic plane enters a hash as its surrogate pair. -/
theorem hash_of_surrogate_pair :
    Text.Encodes ['a', Char.ofNat 0x1F600] [0x61, 0xD83D, 0xDE00] ∧
      Numeral.IsNumeral 36 (0x61 * 31 ^ 2 + 0xD83D * 31 + 0xDE00) ['1', '3', 'z', 'w', 'k'] := by
  obtain ⟨encodes, -, -, isNumeral, -⟩ :=
    hash_is_numeral_of_polynomial (String.ofList ['a', Char.ofNat 0x1F600])
  have units : Text.units (String.ofList ['a', Char.ofNat 0x1F600]) =
      [0x61, 0xD83D, 0xDE00] := by decide
  have characters : (hash (String.ofList ['a', Char.ofNat 0x1F600])).toList =
      ['1', '3', 'z', 'w', 'k'] := by decide +kernel
  rw [units, characters] at isNumeral
  rw [units, String.toList_ofList] at encodes
  exact ⟨encodes, isNumeral⟩

example : hash "\":hover\"" = "zh6im6" ∧ hash "" = "0" := by decide +kernel

end Identifier

end ConditionalStyles
