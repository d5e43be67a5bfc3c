/-!
# Conditions

A condition is a selector or an at-rule, or a composite of conditions under OR
or AND.  A leaf keeps its text as it was written: whether the text has a shape
that a stylesheet can use is a question about the condition, not a restriction
on it, so that a bad condition can be carried along and left out later.
-/

namespace ConditionalStyles

/-- The shapes of leaf text that a stylesheet can use. -/
inductive LeafKind where
  /-- A selector in which `&` stands for the styled element. -/
  | combinator
  | pseudo
  | atRule
deriving DecidableEq

namespace LeafKind

/-- The character that stands for the styled element. -/
def placeholder : Char := '&'

/-- The words that open a query.  The space belongs to them. -/
def queryWords : List String := ["@media ", "@container ", "@supports "]

/-- The shape of a leaf text.  The placeholder decides before anything else. -/
def ofText? (text : String) : Option LeafKind :=
  let characters := text.toList
  if characters.contains placeholder then some .combinator
  else if characters.head? = some ':' then some .pseudo
  else if queryWords.any fun word => word.toList.isPrefixOf characters then
    some .atRule
  else none

end LeafKind

inductive Operator where
  | or
  | and
deriving DecidableEq

def Operator.key : Operator → String
  | .or => "or"
  | .and => "and"

inductive Condition where
  | leaf (text : String)
  | composite (operator : Operator) (operands : List Condition)

namespace Condition

def composite? : Condition → Option (Operator × List Condition)
  | .leaf _ => none
  | .composite operator operands => some (operator, operands)

mutual

/-- Whether every leaf has a usable shape and every composite an operand. -/
def isValid : Condition → Bool
  | .leaf text => (LeafKind.ofText? text).isSome
  | .composite _ operands => !operands.isEmpty && areValid operands

def areValid : List Condition → Bool
  | [] => true
  | first :: rest => first.isValid && areValid rest

end

mutual

/-- The number of composites around the deepest leaf. -/
def depth : Condition → Nat
  | .leaf _ => 0
  | .composite _ operands => greatestDepth operands + 1

def greatestDepth : List Condition → Nat
  | [] => 0
  | first :: rest => max first.depth (greatestDepth rest)

end

mutual

def leaves : Condition → List String
  | .leaf text => [text]
  | .composite _ operands => leavesOf operands

def leavesOf : List Condition → List String
  | [] => []
  | first :: rest => first.leaves ++ leavesOf rest

end

mutual

/-- Whether a condition is true when exactly the leaf texts that satisfy
`matching` match. -/
def holds (matching : String → Bool) : Condition → Bool
  | .leaf text => matching text
  | .composite .or operands => anyHolds matching operands
  | .composite .and operands => allHold matching operands

def anyHolds (matching : String → Bool) : List Condition → Bool
  | [] => false
  | first :: rest => first.holds matching || anyHolds matching rest

def allHold (matching : String → Bool) : List Condition → Bool
  | [] => true
  | first :: rest => first.holds matching && allHold matching rest

end

end Condition

end ConditionalStyles
