import ConditionalStyles.Condition.Basic
import ConditionalStyles.Toggle

/-!
# Stylesheets

A stylesheet is one universal rule that gives every slot its value at rest,
followed by one rule for every leaf, which exchanges the values of the leaf's
pair while the leaf matches.  A composite has no rule: its slots refer to those
of its operands.
-/

namespace ConditionalStyles

inductive SlotValue where
  /-- An invalid value. -/
  | invalid
  /-- A valid and blank value. -/
  | blank
  | either (first second : String)
  | both (first second : String)
deriving DecidableEq

/-- The text of a value.  A reference whose fallback is a reference is valid if
either is; two references in sequence are valid only if both are. -/
def SlotValue.text : SlotValue → String
  | .invalid => "initial"
  | .blank => " "
  | .either first second => "var(" ++ first ++ ",var(" ++ second ++ "))"
  | .both first second => "var(" ++ first ++ ") var(" ++ second ++ ")"

structure Declaration where
  property : String
  value : SlotValue
deriving DecidableEq

def Declaration.text (declaration : Declaration) : String :=
  declaration.property ++ ":" ++ declaration.value.text ++ ";"

def Declaration.textOfAll (declarations : List Declaration) : String :=
  String.join (declarations.map Declaration.text)

/-- Declarations that hold while a leaf matches. -/
structure Rule where
  leaf : String
  kind : LeafKind
  declarations : List Declaration
deriving DecidableEq

namespace Rule

/-- Text with the universal selector in place of the styled element. -/
def universal (leaf : String) : String :=
  String.ofList (leaf.toList.map fun character =>
    if character = LeafKind.placeholder then '*' else character)

def block (header body : String) : String :=
  header ++ "\x7b" ++ body ++ "\x7d"

/-- The text of a rule.  A query holds a universal rule of its own. -/
def text (rule : Rule) : String :=
  let body := Declaration.textOfAll rule.declarations
  match rule.kind with
  | .combinator => block (universal rule.leaf) body
  | .pseudo => block rule.leaf body
  | .atRule => block rule.leaf (block "*" body)

end Rule

/-- The universal rule's declarations and the rules of the leaves. -/
structure Stylesheet where
  initializers : List Declaration
  rules : List Rule
deriving DecidableEq

namespace Stylesheet

def empty : Stylesheet where
  initializers := []
  rules := []

def append (first second : Stylesheet) : Stylesheet where
  initializers := first.initializers ++ second.initializers
  rules := first.rules ++ second.rules

instance : Append Stylesheet where
  append := append

def join (sheets : List Stylesheet) : Stylesheet where
  initializers := sheets.flatMap initializers
  rules := sheets.flatMap rules

/-- The text to insert in a document. -/
def text (sheet : Stylesheet) : String :=
  Rule.block "*" (Declaration.textOfAll sheet.initializers) ++
    String.join (sheet.rules.map Rule.text)

end Stylesheet

end ConditionalStyles
