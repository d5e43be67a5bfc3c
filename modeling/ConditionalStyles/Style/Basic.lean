import ConditionalStyles.Json.Document
import ConditionalStyles.Json.Printer

/-!
# Style objects

A style object maps property names to values and hook names to nested style
objects, in order.  Nothing in the object itself tells the two apart: that is
decided by the configuration it is used with.
-/

namespace ConditionalStyles

inductive StyleValue where
  | null
  | boolean (value : Bool)
  | number (value : Double)
  | text (content : String)
  | list (items : List StyleValue)
  | object (entries : List (String × StyleValue))

/-- Property names and hook names with their values. -/
abbrev Style := Entries StyleValue

namespace StyleValue

/-- The number that a JSON number denotes in a style: the nearest double. -/
def ofNumber : Json.Number → Double
  | .integer value _ => Double.ofInt value
  | .float value => .finite value

mutual

def ofJson : Json → StyleValue
  | .null => .null
  | .boolean value => .boolean value
  | .number value => .number (ofNumber value)
  | .string content => .text content
  | .array items => .list (ofJsonItems items)
  | .object members => .object (ofJsonMembers members)

def ofJsonItems : List Json → List StyleValue
  | [] => []
  | item :: rest => ofJson item :: ofJsonItems rest

def ofJsonMembers : Entries Json → Style
  | [] => []
  | (key, value) :: rest => (key, ofJson value) :: ofJsonMembers rest

end

mutual

/-- A style value as a JSON value.  Numbers that JSON cannot write are null. -/
def toJson : StyleValue → Json
  | .null => .null
  | .boolean value => .boolean value
  | .number (.finite value) => .number (.float value)
  | .number _ => .null
  | .text content => .string content
  | .list items => .array (toJsonItems items)
  | .object entries => .object (toJsonMembers entries)

def toJsonItems : List StyleValue → List Json
  | [] => []
  | item :: rest => item.toJson :: toJsonItems rest

def toJsonMembers : Style → Entries Json
  | [] => []
  | (key, value) :: rest => (key, value.toJson) :: toJsonMembers rest

end

mutual

/-- No object in the value lists a key twice. -/
def WellFormed : StyleValue → Prop
  | .list items => WellFormedItems items
  | .object entries => (Entries.keys entries).Nodup ∧ WellFormedMembers entries
  | _ => True

def WellFormedItems : List StyleValue → Prop
  | [] => True
  | item :: rest => item.WellFormed ∧ WellFormedItems rest

def WellFormedMembers : Style → Prop
  | [] => True
  | (_, value) :: rest => value.WellFormed ∧ WellFormedMembers rest

end

end StyleValue

namespace Style

def ofJson? (value : Json) : Option Style :=
  match StyleValue.ofJson value with
  | .object entries => some entries
  | _ => none

/-- No key is listed twice, neither here nor in an object inside. -/
def WellFormed (style : Style) : Prop :=
  (StyleValue.object style).WellFormed

def toJson (style : Style) : Json :=
  .object (StyleValue.toJsonMembers style)

end Style

end ConditionalStyles
