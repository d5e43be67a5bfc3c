import ConditionalStyles.Configuration
import ConditionalStyles.Settings.Encoding

/-!
# Configuration documents

A configuration document is either an object of hooks, or an object with the
hooks under `hooks` and settings under `options`.  It is taken for the second
form if it has no other keys, and the value of `hooks` is an object that is not
itself a condition.
-/

namespace ConditionalStyles

namespace CommandLine

/-- A configuration and the settings that come with it. -/
structure Document where
  configuration : Configuration
  settings : Settings

namespace Document

inductive Malformed where
  | configuration (cause : Configuration.Malformed)
  | settings (cause : Settings.Malformed)

def Malformed.message : Malformed → String
  | .configuration cause => cause.message
  | .settings cause => "Invalid `options`: " ++ cause.message

/-- The hooks of a document in the second form. -/
def wrappedHooks? (value : Json) : Reported (Option Json) :=
  match value with
  | .object members =>
      if (Entries.keys members).all fun key => key = "hooks" || key = "options" then
        match Entries.get? members "hooks" with
        | some (.object hooks) => do
            match ← Condition.ofJson (.object hooks) with
            | some _ => pure none
            | none => pure (some (.object hooks))
        | _ => pure none
      else pure none
  | _ => pure none

def settingsOf (value : Json) : Except Settings.Malformed Settings :=
  match value.members?.bind fun members => members.get? "options" with
  | some options => Settings.ofJson options
  | none => .ok {}

def ofHooks (settings : Settings) (hooks : Json) : Reported (Except Malformed Document) := do
  match ← Configuration.ofJson hooks with
  | .ok configuration => pure (.ok { configuration, settings })
  | .error cause => pure (.error (.configuration cause))

/-- The configuration and settings of a document.  Settings are read before
hooks. -/
def ofJson (value : Json) : Reported (Except Malformed Document) := do
  match ← wrappedHooks? value with
  | none => ofHooks {} value
  | some hooks =>
      match settingsOf value with
      | .error cause => pure (.error (.settings cause))
      | .ok settings => ofHooks settings hooks

end Document

end CommandLine

end ConditionalStyles
