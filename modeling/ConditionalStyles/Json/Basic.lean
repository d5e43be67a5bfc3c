import ConditionalStyles.Entries
import ConditionalStyles.Double.Nearest

/-!
# JSON values

An object keeps its members in order.  A number is either a whole number that
fits a machine word or a finite double, and the two never compare equal.
-/

namespace ConditionalStyles

namespace Json

-- Powers of whole numbers are those of the core library under every import.
local instance powOfInt : Pow Int Nat := ⟨Int.pow⟩

/-- A whole number fits 64 bits, signed if it is negative. -/
abbrev FitsWord (value : Int) : Prop :=
  -2 ^ (63 : Nat) ≤ value ∧ value < 2 ^ (64 : Nat)

inductive Number where
  | integer (value : Int) (bounds : FitsWord value)
  | float (value : Double.Finite)
deriving DecidableEq

end Json

inductive Json where
  | null
  | boolean (value : Bool)
  | number (value : Json.Number)
  | string (text : String)
  | array (items : List Json)
  | object (members : List (String × Json))

namespace Json

def members? : Json → Option (Entries Json)
  | .object members => some members
  | _ => none

mutual

/-- The number of arrays and objects around the deepest value. -/
def nesting : Json → Nat
  | .array items => nestingOfItems items + 1
  | .object members => nestingOfMembers members + 1
  | _ => 0

def nestingOfItems : List Json → Nat
  | [] => 0
  | item :: rest => max item.nesting (nestingOfItems rest)

def nestingOfMembers : Entries Json → Nat
  | [] => 0
  | (_, value) :: rest => max value.nesting (nestingOfMembers rest)

end

mutual

/-- No object in the value lists a key twice. -/
def WellFormed : Json → Prop
  | .array items => WellFormedItems items
  | .object members =>
      (Entries.keys members).Nodup ∧ WellFormedMembers members
  | _ => True

def WellFormedItems : List Json → Prop
  | [] => True
  | item :: rest => item.WellFormed ∧ WellFormedItems rest

def WellFormedMembers : Entries Json → Prop
  | [] => True
  | (_, value) :: rest => value.WellFormed ∧ WellFormedMembers rest

end

end Json

end ConditionalStyles
