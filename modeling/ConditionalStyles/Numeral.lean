/-!
# Positional numerals

Whole numbers are written in base 10, in base 16 inside escapes, and in base 36
inside hook identifiers.  A numeral is a list of digits, most significant
first; digits above nine are the lower-case letters.
-/

namespace ConditionalStyles

namespace Numeral

/-- The digits of a number, without leading zeros; zero is the single digit 0.
In a base below two the number is its own digit. -/
def digits (base number : Nat) : List Nat :=
  if number < base ∨ base < 2 then [number]
  else digits base (number / base) ++ [number % base]
termination_by number
decreasing_by
  exact Nat.div_lt_self (by omega) (by omega)

def value (base : Nat) (ds : List Nat) : Nat :=
  ds.foldl (fun total digit => total * base + digit) 0

def digitChar (digit : Nat) : Char :=
  if digit < 10 then Char.ofNat ('0'.toNat + digit)
  else Char.ofNat ('a'.toNat + (digit - 10))

/-- The digit a character stands for in a base of at most 36, in either case. -/
def digit? (base : Nat) (character : Char) : Option Nat :=
  let digit :=
    if '0' ≤ character ∧ character ≤ '9' then
      character.toNat - '0'.toNat
    else if 'a' ≤ character ∧ character ≤ 'z' then
      character.toNat - 'a'.toNat + 10
    else if 'A' ≤ character ∧ character ≤ 'Z' then
      character.toNat - 'A'.toNat + 10
    else 36
  if digit < base ∧ digit < 36 then some digit else none

def chars (base number : Nat) : List Char :=
  (digits base number).map digitChar

def text (base number : Nat) : String :=
  String.ofList (chars base number)

/-- The number a sequence of digit characters stands for; other characters
count as zero. -/
def ofChars (base : Nat) (characters : List Char) : Nat :=
  value base (characters.map fun character => (digit? base character).getD 0)

/-! ## Reading a numeral back -/

@[simp] theorem value_nil (base : Nat) : value base [] = 0 := rfl

theorem digit?_digitChar {base digit : Nat} (base_le : base ≤ 36) (valid : digit < base) :
    digit? base (digitChar digit) = some digit := by
  have all : ∀ digit < 36, digit? 36 (digitChar digit) = some digit := by decide
  have read := all digit (by omega)
  simp only [digit?, Option.ite_none_right_eq_some, Option.some.injEq] at read ⊢
  exact ⟨by omega, read.2⟩

theorem value_concat (base : Nat) (ds : List Nat) (digit : Nat) :
    value base (ds ++ [digit]) = value base ds * base + digit := by
  simp [value]

theorem value_digits (base number : Nat) : value base (digits base number) = number := by
  fun_induction digits base number with
  | case1 number small => simp [value]
  | case2 number large ih =>
      rw [value_concat, ih, Nat.mul_comm]
      exact Nat.div_add_mod number base

theorem lt_of_mem_digits {base number digit : Nat} (valid : 2 ≤ base)
    (mem : digit ∈ digits base number) : digit < base := by
  fun_induction digits base number with
  | case1 number small =>
      have : digit = number := by simpa using mem
      omega
  | case2 number large ih =>
      rcases List.mem_append.1 mem with early | last
      · exact ih early
      · have : digit = number % base := by simpa using last
        rw [this]
        exact Nat.mod_lt _ (by omega)

/-- A number is read back from its numeral. -/
theorem ofChars_chars {base : Nat} (valid : 2 ≤ base) (base_le : base ≤ 36) (number : Nat) :
    ofChars base (chars base number) = number := by
  have read : (digits base number).map (fun digit => (digit? base (digitChar digit)).getD 0) =
      digits base number := by
    refine (List.map_congr_left fun digit mem => ?_).trans (List.map_id _)
    rw [digit?_digitChar base_le (lt_of_mem_digits valid mem)]
    rfl
  rw [ofChars, chars, List.map_map]
  exact (congrArg (value base) read).trans (value_digits base number)

/-! ## The first digit -/

theorem chars_ne_nil (base number : Nat) : chars base number ≠ [] := by
  rw [chars, digits]
  split <;> simp

theorem digits_eq_cons {base number : Nat} (valid : 2 ≤ base) (nonzero : number ≠ 0) :
    ∃ first rest, digits base number = first :: rest ∧ first ≠ 0 := by
  fun_induction digits base number with
  | case1 number small => exact ⟨number, [], rfl, nonzero⟩
  | case2 number large ih =>
      have quotient : number / base ≠ 0 := by
        have := Nat.div_pos (Nat.le_of_not_lt fun less => large (.inl less))
          (show 0 < base by omega)
        omega
      obtain ⟨first, rest, same, leading⟩ := ih quotient
      exact ⟨first, rest ++ [number % base], by rw [same, List.cons_append], leading⟩

theorem chars_eq_cons {base number : Nat} (valid : 2 ≤ base) (base_le : base ≤ 36)
    (nonzero : number ≠ 0) :
    ∃ first rest, chars base number = first :: rest ∧ first ≠ '0' := by
  have all : ∀ digit < 36, digit ≠ 0 → digitChar digit ≠ '0' := by decide
  obtain ⟨first, rest, same, leading⟩ := digits_eq_cons valid nonzero
  have mem : first ∈ digits base number := by
    rw [same]
    exact List.mem_cons_self
  have small := lt_of_mem_digits valid mem
  exact ⟨digitChar first, rest.map digitChar, by rw [chars, same, List.map_cons],
    all first (by omega) leading⟩

end Numeral

end ConditionalStyles
