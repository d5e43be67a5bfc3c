import ConditionalStyles.Builder
import ConditionalStyles.CommandLine.Arguments
import ConditionalStyles.CommandLine.Document
import ConditionalStyles.CommonHooks

/-!
# Running a command

A command reads files and gives a text to print.  Files are given by a function
from paths to contents, so that the outcome is a function of the arguments and
of what the files hold.  The configuration is read before the styles, and the
styles in order.
-/

namespace ConditionalStyles

namespace CommandLine

/-- The content of a file as text, if it can be read. -/
abbrev Files := String → Option String

inductive Failure where
  | usage (cause : UsageError)
  | unreadable (path : String)
  | notJson (path : String)
  | malformed (path : String) (cause : Document.Malformed)
  | notStyle (path : String)

def Failure.message : Failure → String
  | .usage cause => cause.message
  | .unreadable path => "Failed to read " ++ path
  | .notJson path => path ++ " is not valid JSON"
  | .malformed path cause => "In " ++ path ++ ": " ++ cause.message
  | .notStyle path => path ++ " does not contain a JSON object"

def readJson (files : Files) (path : String) : Except Failure Json :=
  match files path with
  | none => .error (.unreadable path)
  | some text =>
      match Json.parse? text with
      | none => .error (.notJson path)
      | some value => .ok value

def readDocument (files : Files) (path : String) : Reported (Except Failure Document) :=
  match readJson files path with
  | .error failure => pure (.error failure)
  | .ok value => do
      match ← Document.ofJson value with
      | .ok document => pure (.ok document)
      | .error cause => pure (.error (.malformed path cause))

def readStyle (files : Files) (path : String) : Except Failure Style := do
  let value ← readJson files path
  match Style.ofJson? value with
  | some style => .ok style
  | none => .error (.notStyle path)

/-- The hooks of a document under the flags of a command. -/
def hooksOf (flags : Flags) (document : Document) : HookSet :=
  let builder : Builder :=
    { configuration := document.configuration
      settings := flags.apply document.settings
      renderer := if flags.pixels then Renderer.pixels else Renderer.plain }
  builder.build

def line (text : String) : String :=
  text ++ "\n"

def run (files : Files) : Command → Reported (Except Failure String)
  | .help => pure (.ok (line usage))
  | .recommended => pure (.ok (line Configuration.common.toJson.indented))
  | .compile configuration flags => do
      match ← readDocument files configuration with
      | .error failure => pure (.error failure)
      | .ok document => pure (.ok (line (hooksOf flags document).hooks.cssText))
  | .flatten configuration styles flags => do
      match ← readDocument files configuration with
      | .error failure => pure (.error failure)
      | .ok document =>
          match styles.mapM (readStyle files) with
          | .error failure => pure (.error failure)
          | .ok fragments =>
              let style := (hooksOf flags document).flattenAll fragments
              pure (.ok (line style.toJson.indented))

/-- The files that a command reads, in order. -/
def Command.paths : Command → List String
  | .compile configuration _ => [configuration]
  | .flatten configuration styles _ => configuration :: styles
  | .recommended => []
  | .help => []

def runArguments (files : Files) (arguments : List String) :
    Reported (Except Failure String) :=
  match Command.ofArguments arguments with
  | .error cause => pure (.error (.usage cause))
  | .ok command => run files command

end CommandLine

end ConditionalStyles
