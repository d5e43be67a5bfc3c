import ConditionalStyles.Condition.NormalForm
import ConditionalStyles.Configuration
import ConditionalStyles.Identifier
import ConditionalStyles.Stylesheet.Emission

/-!
# Compiled configurations

Compiling brings every condition to normal form, identifies the hook, and emits
its part of the stylesheet.  A hook whose condition is not valid keeps its
identifier but emits nothing.
-/

namespace ConditionalStyles

structure CompiledHook where
  id : String
  /-- Whether the hook has a toggle pair in the stylesheet. -/
  active : Bool
deriving DecidableEq

structure Compiled where
  stylesheet : Stylesheet
  /-- All configured hooks in the order of declaration. -/
  hooks : Entries CompiledHook

namespace Compiled

def stylesheetOfHook (scheme : Identifier.Scheme) (name : String)
    (condition : Condition) : Stylesheet :=
  let normal := condition.normalize
  if normal.isValid then Stylesheet.ofCondition (scheme name normal) normal
  else .empty

def hook (scheme : Identifier.Scheme) (name : String) (condition : Condition) :
    CompiledHook where
  id := scheme name condition.normalize
  active := condition.normalize.isValid

def ofConfiguration (scheme : Identifier.Scheme) (configuration : Configuration) :
    Compiled where
  stylesheet := Stylesheet.join (configuration.hooks.map fun (name, condition) =>
    stylesheetOfHook scheme name condition)
  hooks := configuration.hooks.map fun (name, condition) =>
    (name, hook scheme name condition)

/-- The text to insert once in a document. -/
def cssText (compiled : Compiled) : String :=
  compiled.stylesheet.text

def id? (compiled : Compiled) (name : String) : Option String :=
  (compiled.hooks.get? name).map CompiledHook.id

def contains (compiled : Compiled) (name : String) : Bool :=
  compiled.hooks.contains name

/-- Whether a name is that of a hook with a toggle pair. -/
def isActive (compiled : Compiled) (name : String) : Bool :=
  match compiled.hooks.get? name with
  | some hook => hook.active
  | none => false

def ids (compiled : Compiled) : List (String × String × Bool) :=
  compiled.hooks.map fun (name, hook) => (name, hook.id, hook.active)

end Compiled

end ConditionalStyles
