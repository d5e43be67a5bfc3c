import ConditionalStyles.CommandLine.Run

/-!
# Command line

Reads the files that the arguments name, runs the command, and prints the
result.  Warnings and failures go to the standard error stream.
-/

open ConditionalStyles

def contentOf (path : String) : IO (Option String) := do
  try
    let content ← IO.FS.readFile path
    return some content
  catch _ => return none

def contentsOf (paths : List String) : IO (Entries (Option String)) :=
  paths.mapM fun path => do
    let content ← contentOf path
    return (path, content)

/-- Run the program; the exit code is 1 after a failure. -/
def main (arguments : List String) : IO UInt32 := do
  let paths :=
    match CommandLine.Command.ofArguments arguments with
    | .ok command => command.paths
    | .error _ => []
  let contents ← contentsOf paths
  let files : CommandLine.Files := fun path => (contents.get? path).join
  let outcome := CommandLine.runArguments files arguments
  for warning in outcome.warnings do
    IO.eprintln warning.message
  match outcome.value with
  | .ok text =>
      IO.print text
      return 0
  | .error failure =>
      IO.eprintln failure.message
      return 1
