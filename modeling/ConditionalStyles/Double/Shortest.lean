import ConditionalStyles.Numeral
import ConditionalStyles.Double.Nearest

/-!
# The shortest decimal of a double

Of the decimals to which a given double is the nearest one, the shortest are
those with the fewest digits, and among these the one nearest to the double is
chosen.  Only the two neighbours of the double on the grid of `n`-digit decimals
are candidates, since any other decimal of `n` digits lies farther away on the
same side.
-/

namespace ConditionalStyles

inductive Tie where
  | toEven
  | up
deriving DecidableEq

namespace Decimal

/-- Drop trailing zeros of the coefficient into the exponent. -/
def strip (decimal : Decimal) : Decimal :=
  if decimal.coefficient ≠ 0 ∧ decimal.coefficient % 10 = 0 then
    strip { coefficient := decimal.coefficient / 10, exponent := decimal.exponent + 1 }
  else decimal
termination_by decimal.coefficient
decreasing_by
  exact Nat.div_lt_self (by omega) (by omega)

end Decimal

namespace Double.Finite

def isNearestTo (number : Finite) (decimal : Decimal) : Bool :=
  Double.ofDecimal number.negative decimal = .finite number

/-- The exact value of the number; a power of ten over a power of five is a
power of two. -/
def exact (number : Finite) : Decimal where
  coefficient := number.units * Nat.pow 5 1074
  exponent := -1074

/-- The least power of ten above a non-zero magnitude. -/
def leadingExponent (number : Finite) : Int :=
  if unitsPerOne ≤ number.units then
    (Numeral.digits 10 (number.units / unitsPerOne)).length
  else
    1 - ((Numeral.digits 10 ((unitsPerOne - 1) / number.units)).length : Int)

def overPower (number : Finite) (exponent : Int) : Nat × Nat :=
  match exponent with
  | .ofNat up => (number.units, unitsPerOne * Nat.pow 10 up)
  | .negSucc down => (number.units * Nat.pow 10 (down + 1), unitsPerOne)

/-- Of the two neighbours of `num / den` on the grid `10 ^ exponent` the one that
passes a test, and the nearer one if both do. -/
def neighbour? (tie : Tie) (passes : Decimal → Bool) (exponent : Int) (num den : Nat) :
    Option Decimal :=
  let below : Decimal := { coefficient := num / den, exponent }
  let above : Decimal := { coefficient := num / den + 1, exponent }
  match passes below, passes above with
  | false, false => none
  | true, false => some below
  | false, true => some above
  | true, true =>
      let twice := 2 * num
      let middle := (below.coefficient + above.coefficient) * den
      if twice < middle then some below
      else if middle < twice then some above
      else
        match tie with
        | .toEven => some (if below.coefficient % 2 = 0 then below else above)
        | .up => some above

/-- The decimal on the grid `10 ^ exponent` that identifies the number and is
nearest to it, among the two neighbours of the number on that grid. -/
def onGrid? (tie : Tie) (number : Finite) (exponent : Int) : Option Decimal :=
  let quotient := number.overPower exponent
  neighbour? tie number.isNearestTo exponent quotient.1 quotient.2

/-- The shortest decimal that identifies the number.  Seventeen digits
suffice for every double; were they not to, the exact value is taken. -/
def shortest (tie : Tie) (number : Finite) : Decimal :=
  if number.isZero then { coefficient := 0, exponent := 0 }
  else
    let leading := number.leadingExponent
    let grids := (List.range 17).map fun count => leading - (count + 1 : Nat)
    ((grids.findSome? (number.onGrid? tie)).getD number.exact).strip

end Double.Finite

end ConditionalStyles
