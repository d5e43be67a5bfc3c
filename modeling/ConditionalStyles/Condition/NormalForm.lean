import ConditionalStyles.Condition.Basic

/-!
# Normal form of a condition

Only pairs of operands can be tied together in a stylesheet, so a composite of
several operands is regrouped to the right: `op[a, b, c]` becomes
`op[a, op[b, c]]`.  A composite of one operand is that operand.
-/

namespace ConditionalStyles

namespace Condition

/-- Operands grouped to the right under one operator. -/
def chain (operator : Operator) : List Condition → Condition
  | [] => .composite operator []
  | [only] => only
  | first :: second :: rest =>
      .composite operator [first, chain operator (second :: rest)]

mutual

/-- The condition with every composite regrouped into pairs. -/
def normalize : Condition → Condition
  | .leaf text => .leaf text
  | .composite operator operands => chain operator (normalizeAll operands)

def normalizeAll : List Condition → List Condition
  | [] => []
  | first :: rest => first.normalize :: normalizeAll rest

end

end Condition

end ConditionalStyles
