import ConditionalStyles.Double.Basic

/-!
# The double nearest to a decimal

A decimal is rounded once, to the nearest double, and a tie goes to the double
whose last fraction bit is zero.  Magnitudes past the largest finite one by at
least half a step round to infinity.
-/

namespace ConditionalStyles

/-- The number `coefficient * 10 ^ exponent`. -/
structure Decimal where
  coefficient : Nat
  exponent : Int
deriving DecidableEq

namespace Double

/-- A quotient rounded to the nearest whole number, ties to even. -/
def roundToEven (num den : Nat) : Nat :=
  let quotient := num / den
  let remainder := num % den
  if 2 * remainder < den then quotient
  else if den < 2 * remainder then quotient + 1
  else quotient + quotient % 2

/-- The rank nearest to a magnitude of `num / den` units.  A magnitude of more
than 53 bits keeps its first 53, so neighbouring ranks are apart by two to the
number of bits dropped. -/
def nearestRank (num den : Nat) : Nat :=
  let dropped := (num / den).log2 - 52
  dropped * Nat.pow 2 52 + roundToEven num (den * Nat.pow 2 dropped)

end Double

namespace Decimal

/-- The decimal in units, as numerator and denominator. -/
def units (decimal : Decimal) : Nat × Nat :=
  match decimal.exponent with
  | .ofNat up => (decimal.coefficient * Nat.pow 10 up * Double.unitsPerOne, 1)
  | .negSucc down => (decimal.coefficient * Double.unitsPerOne, Nat.pow 10 (down + 1))

def rank (decimal : Decimal) : Nat :=
  Double.nearestRank decimal.units.1 decimal.units.2

end Decimal

namespace Double

def ofDecimal (negative : Bool) (decimal : Decimal) : Double :=
  ofRank negative decimal.rank

def ofInt (number : Int) : Double :=
  ofDecimal (decide (number < 0)) { coefficient := number.natAbs, exponent := 0 }

end Double

end ConditionalStyles
