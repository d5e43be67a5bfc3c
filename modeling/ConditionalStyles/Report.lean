import ConditionalStyles.Json.Printer

/-!
# Reports

Reading a configuration tolerates mistakes and reports them.  A reported value
comes with the warnings given on the way to it, in order.
-/

namespace ConditionalStyles

/-- Something in a configuration that was passed over. -/
inductive Warning where
  | mixedOperators (node : Json)
  | skippedHook (name : String) (value : Json)

def Warning.message : Warning → String
  | .mixedOperators node =>
      "Hook condition mixes `or` and `and` in one node: " ++ node.compact
  | .skippedHook name value =>
      "Skipping hook `" ++ name ++ "`: unrecognized condition " ++ value.compact

theorem Warning.message_mixedOperators (node : Json) :
    (mixedOperators node).message =
      "Hook condition mixes `or` and `and` in one node: " ++ node.compact := rfl

theorem Warning.message_skippedHook (name : String) (value : Json) :
    (skippedHook name value).message =
      "Skipping hook `" ++ name ++ "`: unrecognized condition " ++ value.compact := rfl

/-- A value with the warnings given on the way to it. -/
structure Reported (α : Type) where
  warnings : List Warning
  value : α

namespace Reported

variable {α β : Type}

def ofValue (value : α) : Reported α where
  warnings := []
  value := value

def warn (warning : Warning) : Reported Unit where
  warnings := [warning]
  value := ()

/-- Go on from a value; its warnings come first. -/
def andThen (first : Reported α) (next : α → Reported β) : Reported β where
  warnings := first.warnings ++ (next first.value).warnings
  value := (next first.value).value

instance : Monad Reported where
  pure := ofValue
  bind := andThen

@[simp] theorem warnings_pure (value : α) :
    (pure value : Reported α).warnings = [] := rfl

@[simp] theorem value_pure (value : α) : (pure value : Reported α).value = value := rfl

@[simp] theorem warnings_bind (first : Reported α) (next : α → Reported β) :
    (first >>= next).warnings = first.warnings ++ (next first.value).warnings := rfl

@[simp] theorem value_bind (first : Reported α) (next : α → Reported β) :
    (first >>= next).value = (next first.value).value := rfl

end Reported

end ConditionalStyles
