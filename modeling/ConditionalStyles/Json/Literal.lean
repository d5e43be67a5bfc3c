import ConditionalStyles.Json.Basic
import ConditionalStyles.Double.Layout
import ConditionalStyles.Double.Stepwise

/-!
# JSON number literals

A literal without a point or a power of ten that fits 64 bits is a whole
number.  Every other literal is a double: its digits are taken as long as they
fit 64 bits, and the decimal they make is rounded step by step.  A literal is
refused if that double is infinite.  Reading takes the longest literal at the
start of a text.
-/

namespace ConditionalStyles

namespace Json

/-- Numbers that are not whole have the fewest digits that identify them.  They
are positional from `1e-5` to below `1e16`, always with a fraction digit. -/
def floatLayout : Layout where
  tie := .toEven
  positional exponent := -5 ≤ exponent && exponent < 16
  fractionOfWhole := true
  signedZero := true

def Number.text : Number → String
  | .integer value _ =>
      let sign := if value < 0 then ['-'] else []
      String.ofList (sign ++ Numeral.chars 10 value.natAbs)
  | .float value => floatLayout.text value

/-- The parts of a number literal. -/
structure Literal where
  negative : Bool
  whole : List Char
  fraction : Option (List Char)
  exponent : Option (Bool × List Char)

namespace Literal

def power (literal : Literal) : Int :=
  match literal.exponent with
  | none => 0
  | some (true, digits) => -(Numeral.ofChars 10 digits : Int)
  | some (false, digits) => Numeral.ofChars 10 digits

/-- Digits appended to a number as long as it fits 64 bits, and the digits that
are left from the first one on that does not fit. -/
def appendDigits (number : Nat) : List Char → Nat × List Char
  | [] => (number, [])
  | digit :: rest =>
      let longer := number * 10 + Numeral.ofChars 10 [digit]
      if longer < Nat.pow 2 64 then appendDigits longer rest else (number, digit :: rest)

/-- The magnitude of the literal with the digits that fit 64 bits.  A whole digit
that is left out counts as a zero, a digit of the fraction not at all. -/
def decimal (literal : Literal) : Decimal :=
  let fraction := literal.fraction.getD []
  let (whole, zeros) := appendDigits 0 literal.whole
  let (coefficient, unread) := appendDigits whole fraction
  { coefficient
    exponent := literal.power + zeros.length - (fraction.length - unread.length : Nat) }

def isWhole (literal : Literal) : Bool :=
  literal.fraction.isNone && literal.exponent.isNone

/-- The double of the literal; none if that is infinite. -/
def float? (literal : Literal) : Option Number :=
  match Double.ofDecimalStepwise literal.negative literal.decimal with
  | .finite value => some (.float value)
  | _ => none

/-- The number of the literal.  A whole literal that fits 64 bits is kept as it
is, but the whole number zero has no sign, so a negative zero is a double. -/
def number? (literal : Literal) : Option Number :=
  let magnitude : Int := Numeral.ofChars 10 literal.whole
  let value := if literal.negative then -magnitude else magnitude
  if bounds : FitsWord value then
    if literal.isWhole && !(literal.negative && value == 0) then
      some (.integer value bounds)
    else literal.float?
  else literal.float?

end Literal

/-- The longest run of digits and what follows it; none if there is no digit. -/
def digitRun? (text : List Char) : Option (List Char × List Char) :=
  match text.takeWhile Char.isDigit with
  | [] => none
  | digits => some (digits, text.dropWhile Char.isDigit)

/-- The digits before the point: a leading zero stands alone. -/
def wholePart? (text : List Char) : Option (List Char × List Char) :=
  match text with
  | '0' :: rest => some (['0'], rest)
  | _ => digitRun? text

def fractionPart? (text : List Char) : Option (Option (List Char) × List Char) :=
  match text with
  | '.' :: rest => (digitRun? rest).map fun (digits, rest) => (some digits, rest)
  | _ => some (none, text)

def exponentPart? (text : List Char) :
    Option (Option (Bool × List Char) × List Char) :=
  match text with
  | mark :: rest =>
      if mark = 'e' ∨ mark = 'E' then
        let (negative, rest) :=
          match rest with
          | '-' :: rest => (true, rest)
          | '+' :: rest => (false, rest)
          | _ => (false, rest)
        (digitRun? rest).map fun (digits, rest) => (some (negative, digits), rest)
      else some (none, text)
  | [] => some (none, text)

def literal? (text : List Char) : Option (Literal × List Char) :=
  let (negative, rest) :=
    match text with
    | '-' :: rest => (true, rest)
    | _ => (false, text)
  match wholePart? rest with
  | none => none
  | some (whole, rest) =>
    match fractionPart? rest with
    | none => none
    | some (fraction, rest) =>
      match exponentPart? rest with
      | none => none
      | some (exponent, rest) => some ({ negative, whole, fraction, exponent }, rest)

theorem digitRun?_length {text digits rest : List Char}
    (read : digitRun? text = some (digits, rest)) : rest.length < text.length := by
  unfold digitRun? at read
  split at read
  · simp at read
  · rename_i nonempty
    simp only [Option.some.injEq, Prod.mk.injEq] at read
    obtain ⟨-, rfl⟩ := read
    have parts := congrArg List.length
      (List.takeWhile_append_dropWhile (p := Char.isDigit) (l := text))
    have positive := List.length_pos_iff.2 nonempty
    rw [List.length_append] at parts
    omega

theorem wholePart?_length {text digits rest : List Char}
    (read : wholePart? text = some (digits, rest)) : rest.length < text.length := by
  unfold wholePart? at read
  split at read
  · simp only [Option.some.injEq, Prod.mk.injEq] at read
    obtain ⟨-, rfl⟩ := read
    simp
  · exact digitRun?_length read

theorem fractionPart?_length {text rest : List Char} {fraction : Option (List Char)}
    (read : fractionPart? text = some (fraction, rest)) :
    rest.length ≤ text.length := by
  unfold fractionPart? at read
  split at read
  · obtain ⟨⟨digits, after⟩, found, same⟩ := Option.map_eq_some_iff.1 read
    have shorter := digitRun?_length found
    simp only [Prod.mk.injEq] at same
    obtain ⟨-, rfl⟩ := same
    simp only [List.length_cons]
    omega
  · simp only [Option.some.injEq, Prod.mk.injEq] at read
    obtain ⟨-, rfl⟩ := read
    exact Nat.le_refl _

theorem exponentPart?_length {text rest : List Char}
    {exponent : Option (Bool × List Char)}
    (read : exponentPart? text = some (exponent, rest)) :
    rest.length ≤ text.length := by
  unfold exponentPart? at read
  split at read
  · split at read
    · obtain ⟨⟨digits, after⟩, found, same⟩ := Option.map_eq_some_iff.1 read
      have shorter := digitRun?_length found
      simp only [Prod.mk.injEq] at same
      obtain ⟨-, rfl⟩ := same
      simp only [List.length_cons]
      split at shorter <;> simp only [List.length_cons] at shorter ⊢ <;> omega
    · simp only [Option.some.injEq, Prod.mk.injEq] at read
      obtain ⟨-, rfl⟩ := read
      exact Nat.le_refl _
  · simp only [Option.some.injEq, Prod.mk.injEq] at read
    obtain ⟨-, rfl⟩ := read
    exact Nat.le_refl _

theorem literal?_length {text rest : List Char} {literal : Literal}
    (read : literal? text = some (literal, rest)) : rest.length < text.length := by
  unfold literal? at read
  simp only at read
  split at read
  · simp at read
  · rename_i whole afterWhole foundWhole
    have first := wholePart?_length foundWhole
    split at read
    · simp at read
    · rename_i fraction afterFraction foundFraction
      have second := fractionPart?_length foundFraction
      split at read
      · simp at read
      · rename_i exponent afterExponent foundExponent
        have third := exponentPart?_length foundExponent
        simp only [Option.some.injEq, Prod.mk.injEq] at read
        obtain ⟨-, rfl⟩ := read
        split at first <;> simp only [List.length_cons] at first ⊢ <;> omega

end Json

end ConditionalStyles
