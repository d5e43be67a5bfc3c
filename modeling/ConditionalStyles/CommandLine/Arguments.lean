import ConditionalStyles.Settings.Basic

/-!
# Command-line arguments

The first argument names a command, and the others are flags and operands in
any order.  Arguments are first read as items, from left to right; the one item
that takes up two arguments is `--fallback` with its keyword.  The leftmost bad
item decides the message, before the command is looked at.
-/

namespace ConditionalStyles

namespace CommandLine

def usage : String :=
  "usage:\n" ++
  "  css-hooks compile <config.json> [--debug] [--fallback unset|revert-layer]\n" ++
  "  css-hooks flatten <config.json> <style.json>... [--sort] [--debug] " ++
  "[--fallback unset|revert-layer] [--px]\n" ++
  "  css-hooks recommended"

/-! ## Items -/

/-- A unit of the arguments after the command. -/
inductive Item where
  /-- The flag for the fallback, with the keyword given to it, if any. -/
  | fallback (keyword : Option String)
  | debug
  | sort
  | pixels
  | unknownFlag (argument : String)
  | operand (argument : String)
deriving DecidableEq

def textAfter? (beginning argument : String) : Option String :=
  if beginning.toList.isPrefixOf argument.toList then
    some (String.ofList (argument.toList.drop beginning.length))
  else none

def Item.ofArgument (argument : String) : Item :=
  match textAfter? "--fallback=" argument with
  | some keyword => .fallback (some keyword)
  | none =>
      if argument = "--debug" then .debug
      else if argument = "--sort" then .sort
      else if argument = "--px" then .pixels
      else if (textAfter? "--" argument).isSome then .unknownFlag argument
      else .operand argument

def Item.ofArguments : List String → List Item
  | [] => []
  | [argument] =>
      if argument = "--fallback" then [.fallback none] else [Item.ofArgument argument]
  | argument :: next :: rest =>
      if argument = "--fallback" then .fallback (some next) :: Item.ofArguments rest
      else Item.ofArgument argument :: Item.ofArguments (next :: rest)

/-! ## Commands -/

structure Flags where
  fallback : Option Fallback := none
  sort : Bool := false
  debug : Bool := false
  pixels : Bool := false
deriving DecidableEq

/-- Settings of a document with those given on the command line in their
place. -/
def Flags.apply (flags : Flags) (settings : Settings) : Settings where
  fallback := flags.fallback.getD settings.fallback
  sort := flags.sort || settings.sort
  debug := flags.debug || settings.debug

inductive Command where
  | compile (configuration : String) (flags : Flags)
  | flatten (configuration : String) (styles : List String) (flags : Flags)
  | recommended
  | help
deriving DecidableEq

inductive UsageError where
  | unknownFlag (argument : String)
  | missingKeyword
  | unknownFallback (keyword : String)
  | compileOperands
  | flattenOperands
  | recommendedOperands
  | unknownCommand (name : String)
deriving DecidableEq

def withUsage (message : String) : String :=
  message ++ "\n\n" ++ usage

def UsageError.message : UsageError → String
  | .unknownFlag argument => withUsage ("Unknown flag `" ++ argument ++ "`")
  | .missingKeyword => "`--fallback` needs a keyword"
  | .unknownFallback keyword =>
      "Unknown fallback `" ++ keyword ++ "`, expected `" ++ Fallback.unset.keyword ++
        "` or `" ++ Fallback.revertLayer.keyword ++ "`"
  | .compileOperands => withUsage "`compile` takes exactly one configuration file"
  | .flattenOperands =>
      withUsage "`flatten` takes a configuration file and at least one style file"
  | .recommendedOperands => withUsage "`recommended` takes no operands"
  | .unknownCommand name => withUsage ("Unknown command `" ++ name ++ "`")

/-- Flags and operands, taken apart. -/
structure Given where
  flags : Flags := {}
  operands : List String := []
deriving DecidableEq

def Given.add (given : Given) : Item → Except UsageError Given
  | .fallback none => .error .missingKeyword
  | .fallback (some keyword) =>
      match Fallback.ofKeyword? keyword with
      | some fallback =>
          .ok { given with flags := { given.flags with fallback := some fallback } }
      | none => .error (.unknownFallback keyword)
  | .debug => .ok { given with flags := { given.flags with debug := true } }
  | .sort => .ok { given with flags := { given.flags with sort := true } }
  | .pixels => .ok { given with flags := { given.flags with pixels := true } }
  | .unknownFlag argument => .error (.unknownFlag argument)
  | .operand argument => .ok { given with operands := given.operands ++ [argument] }

def Given.ofItems (items : List Item) : Except UsageError Given :=
  items.foldlM Given.add {}

def Command.ofGiven (name : String) (given : Given) : Except UsageError Command :=
  if name = "compile" then
    match given.operands with
    | [configuration] => .ok (.compile configuration given.flags)
    | _ => .error .compileOperands
  else if name = "flatten" then
    match given.operands with
    | configuration :: style :: styles =>
        .ok (.flatten configuration (style :: styles) given.flags)
    | _ => .error .flattenOperands
  else if name = "recommended" then
    match given.operands with
    | [] => .ok .recommended
    | _ => .error .recommendedOperands
  else if name = "help" ∨ name = "--help" ∨ name = "-h" then .ok .help
  else .error (.unknownCommand name)

/-- The command that arguments ask for.  Without arguments it is help. -/
def Command.ofArguments : List String → Except UsageError Command
  | [] => .ok .help
  | name :: arguments =>
      match Given.ofItems (Item.ofArguments arguments) with
      | .ok given => Command.ofGiven name given
      | .error error => .error error

end CommandLine

end ConditionalStyles
