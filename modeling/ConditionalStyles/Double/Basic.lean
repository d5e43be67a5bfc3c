/-!
# Doubles

A finite double is a sign and a rank.  The rank counts the finite magnitudes
below it, so it is also the pattern of its 63 low bits: the upper eleven of
them are the exponent field, the lower 52 the fraction field.  Every finite
magnitude is a whole multiple of the least positive one, `2 ^ -1074`, called a
unit here.
-/

namespace ConditionalStyles

namespace Double

/-- The number of finite magnitudes: all but the last of 2048 exponent fields,
each with every fraction field. -/
def rankLimit : Nat := 2047 * Nat.pow 2 52

/-- A double that is neither infinite nor undefined. -/
structure Finite where
  /-- Whether the sign bit is set; zero has both signs. -/
  negative : Bool
  /-- The number of finite magnitudes below this one. -/
  rank : Nat
  rank_lt : rank < rankLimit
deriving DecidableEq

def unitsPerOne : Nat := Nat.pow 2 1074

/-- The magnitude of a rank in units.  An exponent field of zero stands for
the fraction alone; every other one adds a leading bit and doubles once for
each step above the first. -/
def unitsOfRank (rank : Nat) : Nat :=
  let exponent := rank / Nat.pow 2 52
  let fraction := rank % Nat.pow 2 52
  if exponent = 0 then fraction else (Nat.pow 2 52 + fraction) * Nat.pow 2 (exponent - 1)

namespace Finite

def units (number : Finite) : Nat :=
  unitsOfRank number.rank

def isZero (number : Finite) : Bool :=
  number.rank == 0

def zero (negative : Bool) : Finite where
  negative := negative
  rank := 0
  rank_lt := by decide

end Finite

end Double

inductive Double where
  | finite (number : Double.Finite)
  | infinite (negative : Bool)
  | nan
deriving DecidableEq

namespace Double

/-- The double with a sign and the magnitude of a rank; ranks past the finite
ones are infinite. -/
def ofRank (negative : Bool) (rank : Nat) : Double :=
  if bounded : rank < rankLimit then
    .finite { negative, rank, rank_lt := bounded }
  else .infinite negative

/-- The double with the given bits: sign, then exponent field, then fraction
field.  Patterns past the one of infinity are not numbers. -/
def ofBits (bits : UInt64) : Double :=
  let negative := decide (Nat.pow 2 63 ≤ bits.toNat)
  let rank := bits.toNat % Nat.pow 2 63
  if rank ≤ rankLimit then ofRank negative rank else .nan

theorem ofRank_of_lt {negative : Bool} {rank : Nat} (bounded : rank < rankLimit) :
    ofRank negative rank = .finite { negative, rank, rank_lt := bounded } := by
  simp [ofRank, bounded]

theorem ofRank_of_le {negative : Bool} {rank : Nat} (bounded : rankLimit ≤ rank) :
    ofRank negative rank = .infinite negative := by
  simp [ofRank, Nat.not_lt.2 bounded]

end Double

end ConditionalStyles
