import ConditionalStyles.Stylesheet.Basic

/-!
# The stylesheet of a condition

Every node of a condition in normal form has a toggle pair.  The operands of a
composite are identified by appending `A` and `B` to the identifier of the
composite, and their declarations come before its own, so that a declaration
refers only to earlier ones.
-/

namespace ConditionalStyles

namespace Stylesheet

/-- The pair of a node: the value of each slot. -/
def pair (id : String) (whenFalse whenTrue : SlotValue) : List Declaration :=
  [{ property := Slot.whenFalse.property id, value := whenFalse },
    { property := Slot.whenTrue.property id, value := whenTrue }]

/-- The pair of a leaf that does not match. -/
def resting (id : String) : List Declaration :=
  pair id .invalid .blank

/-- The pair of a leaf that matches. -/
def matched (id : String) : List Declaration :=
  pair id .blank .invalid

def leftId (id : String) : String := id ++ "A"

def rightId (id : String) : String := id ++ "B"

/-- The pair of a composite.  Its `whenFalse` slot is valid exactly if those of
the operands make the condition true, and its `whenTrue` slot exactly if theirs
make it false. -/
def combined (operator : Operator) (id : String) : List Declaration :=
  let left := leftId id
  let right := rightId id
  let either (slot : Slot) : SlotValue :=
    .either (slot.property left) (slot.property right)
  let both (slot : Slot) : SlotValue :=
    .both (slot.property left) (slot.property right)
  match operator with
  | .or => pair id (either .whenFalse) (both .whenTrue)
  | .and => pair id (both .whenFalse) (either .whenTrue)

def ofLeaf (id text : String) : Stylesheet :=
  match LeafKind.ofText? text with
  | none => empty
  | some kind =>
      { initializers := resting id
        rules := [{ leaf := text, kind, declarations := matched id }] }

mutual

/-- The declarations and rules of a condition in normal form. -/
def ofCondition (id : String) : Condition → Stylesheet
  | .leaf text => ofLeaf id text
  | .composite operator operands => ofOperands operator id operands

/-- The declarations and rules of a composite, those of its operands first.
There are none if it does not have two operands. -/
def ofOperands (operator : Operator) (id : String) : List Condition → Stylesheet
  | [left, right] =>
      ofCondition (leftId id) left ++ ofCondition (rightId id) right ++
        { initializers := combined operator id, rules := [] }
  | _ => empty

end

end Stylesheet

end ConditionalStyles
