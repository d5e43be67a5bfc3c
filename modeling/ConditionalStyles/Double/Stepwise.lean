import ConditionalStyles.Double.Nearest

/-!
# Decimals rounded step by step

The double nearest to a decimal takes one rounding of an exact quotient.  A
computation with doubles alone rounds at every step: the coefficient, the power
of ten, and their product or quotient.  Its result is close to the decimal but
not always the nearest double, and a decimal just below the largest double may
come out infinite.

Magnitudes are given by their ranks, and ranks past the finite ones stand for
infinity.
-/

namespace ConditionalStyles

namespace Double

/-- The largest exponent of ten in one step; the next power is no longer
finite. -/
def largestPower : Nat := 308

def powerRank (exponent : Nat) : Nat :=
  Decimal.rank { coefficient := 1, exponent }

def productRank (first second : Nat) : Nat :=
  nearestRank (unitsOfRank first * unitsOfRank second) unitsPerOne

def quotientRank (first second : Nat) : Nat :=
  nearestRank (unitsOfRank first * unitsPerOne) (unitsOfRank second)

/-- A magnitude times a power of ten.  Zero stays zero, and a power that is not
finite makes everything else infinite. -/
def scaleUp (rank exponent : Nat) : Nat :=
  if rank = 0 then 0
  else if exponent ≤ largestPower then productRank rank (powerRank exponent)
  else rankLimit

/-- A magnitude over a power of ten.  The largest power is divided out as long
as the exponent exceeds it and the magnitude is not zero. -/
def scaleDown (rank exponent : Nat) : Nat :=
  if exponent ≤ largestPower then quotientRank rank (powerRank exponent)
  else if rank = 0 then 0
  else scaleDown (quotientRank rank (powerRank largestPower)) (exponent - largestPower)
termination_by exponent
decreasing_by
  have positive : 0 < largestPower := by decide
  omega

end Double

namespace Decimal

/-- The rank of the decimal, with a rounding at every step. -/
def stepwiseRank (decimal : Decimal) : Nat :=
  let start := Decimal.rank { coefficient := decimal.coefficient, exponent := 0 }
  match decimal.exponent with
  | .ofNat up => Double.scaleUp start up
  | .negSucc down => Double.scaleDown start (down + 1)

end Decimal

namespace Double

def ofDecimalStepwise (negative : Bool) (decimal : Decimal) : Double :=
  ofRank negative decimal.stepwiseRank

end Double

end ConditionalStyles
