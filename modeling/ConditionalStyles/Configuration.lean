import ConditionalStyles.Condition.Encoding
import ConditionalStyles.Json.Document

/-!
# Hook configurations

A configuration names hooks and gives each one its condition.  The order in
which hooks are declared is the order of their rules in the stylesheet.
-/

namespace ConditionalStyles

/-- Hooks and their conditions, in the order of declaration. -/
structure Configuration where
  hooks : Entries Condition
  /-- No hook is declared twice. -/
  nodup : (Entries.keys hooks).Nodup

namespace Configuration

def empty : Configuration where
  hooks := []
  nodup := List.nodup_nil

/-- Declare a hook.  A hook declared before keeps its position. -/
def insert (configuration : Configuration) (name : String) (condition : Condition) :
    Configuration where
  hooks := configuration.hooks.insert name condition
  nodup := Entries.nodup_keys_insert configuration.nodup name condition

def ofList (hooks : List (String × Condition)) : Configuration where
  hooks := Entries.ofList hooks
  nodup := Entries.nodup_keys_ofList hooks

def get? (configuration : Configuration) (name : String) : Option Condition :=
  configuration.hooks.get? name

def contains (configuration : Configuration) (name : String) : Bool :=
  configuration.hooks.contains name

def size (configuration : Configuration) : Nat :=
  configuration.hooks.length

def isEmpty (configuration : Configuration) : Bool :=
  configuration.hooks.isEmpty

/-! ## Documents -/

def toJson (configuration : Configuration) : Json :=
  .object (Entries.mapValues Condition.toJson configuration.hooks)

/-- Declare the hook of a document entry, or skip it with a warning if its
value is no condition. -/
def insertMember (configuration : Configuration) (member : String × Json) :
    Reported Configuration := do
  match ← Condition.ofJson member.2 with
  | some condition => pure (configuration.insert member.1 condition)
  | none =>
      Reported.warn (.skippedHook member.1 member.2)
      pure configuration

def ofMembers (members : Entries Json) : Reported Configuration :=
  members.foldlM insertMember empty

inductive Malformed where
  | notJson
  | notObject (value : Json)

def Malformed.message : Malformed → String
  | .notJson => "Hook configuration is not valid JSON"
  | .notObject value =>
      "Hook configuration must be a JSON object, got " ++ value.compact

def ofJson (value : Json) : Reported (Except Malformed Configuration) :=
  match value with
  | .object members => do
      let configuration ← ofMembers members
      pure (.ok configuration)
  | other => pure (.error (.notObject other))

def parse (text : String) : Reported (Except Malformed Configuration) :=
  match Json.parse? text with
  | some value => ofJson value
  | none => pure (.error .notJson)

end Configuration

end ConditionalStyles
