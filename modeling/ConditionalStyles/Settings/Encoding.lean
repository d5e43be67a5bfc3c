import ConditionalStyles.Json.Printer
import ConditionalStyles.Settings.Basic
import ConditionalStyles.Text.Quoted

/-!
# Settings in configuration documents

Settings are read from an object by name or from an array by position, and what
is not given keeps its default.  Members of an object with other names do not
matter.  Members are read in the order of the document, and the first one that
is malformed decides the message.
-/

namespace ConditionalStyles

namespace Settings

inductive Expected where
  | settings
  | keyword
  | null
  | boolean
deriving DecidableEq

def Expected.text : Expected → String
  | .settings => "struct Options"
  | .keyword => "string or map"
  | .null => "unit"
  | .boolean => "a boolean"

inductive Malformed where
  | wrongType (found : Json) (expected : Expected)
  /-- A keyword in object form that does not have exactly one key. -/
  | notOneKeyword
  | unknownKeyword (keyword : String)
  /-- An array with more items than there are settings. -/
  | tooLong (length : Nat)

def describe : Json → String
  | .null => "null"
  | .boolean true => "boolean `true`"
  | .boolean false => "boolean `false`"
  | .number (.integer value bounds) =>
      "integer `" ++ (Json.Number.integer value bounds).text ++ "`"
  | .number (.float value) => "floating point `" ++ (Json.Number.float value).text ++ "`"
  | .string text => "string " ++ Text.quoted text
  | .array _ => "sequence"
  | .object _ => "map"

def knownKeywords : String :=
  "`" ++ Fallback.unset.keyword ++ "` or `" ++ Fallback.revertLayer.keyword ++ "`"

def Malformed.message : Malformed → String
  | .wrongType found expected =>
      "invalid type: " ++ describe found ++ ", expected " ++ expected.text
  | .notOneKeyword => "invalid value: map, expected map with a single key"
  | .unknownKeyword keyword =>
      "unknown variant `" ++ keyword ++ "`, expected " ++ knownKeywords
  | .tooLong length =>
      "invalid length " ++ Numeral.text 10 length ++
        ", expected fewer elements in array"

/-! ## Reading -/

def decodeKeyword (keyword : String) : Except Malformed Fallback :=
  match Fallback.ofKeyword? keyword with
  | some fallback => .ok fallback
  | none => .error (.unknownKeyword keyword)

/-- The fallback that a JSON value names: its keyword, or the keyword as the
only key of an object, with the value null. -/
def decodeFallback : Json → Except Malformed Fallback
  | .string keyword => decodeKeyword keyword
  | .object [(keyword, value)] => do
      let fallback ← decodeKeyword keyword
      match value with
      | .null => .ok fallback
      | other => .error (.wrongType other .null)
  | .object _ => .error .notOneKeyword
  | other => .error (.wrongType other .keyword)

def decodeBoolean : Json → Except Malformed Bool
  | .boolean value => .ok value
  | other => .error (.wrongType other .boolean)

/-- The names of the settings, in the order of their positions in an array. -/
def names : List String := ["fallback", "sort", "debug"]

/-- Set what a name stands for; other names do not matter. -/
def decodeMember (settings : Settings) (member : String × Json) :
    Except Malformed Settings :=
  if member.1 = "fallback" then do
    let fallback ← decodeFallback member.2
    .ok { settings with fallback }
  else if member.1 = "sort" then do
    let sort ← decodeBoolean member.2
    .ok { settings with sort }
  else if member.1 = "debug" then do
    let debug ← decodeBoolean member.2
    .ok { settings with debug }
  else .ok settings

def ofJson : Json → Except Malformed Settings
  | .object members => members.foldlM decodeMember {}
  | .array items => do
      let settings ← (names.zip items).foldlM decodeMember {}
      if names.length < items.length then .error (.tooLong items.length)
      else .ok settings
  | other => .error (.wrongType other .settings)

/-! ## Writing -/

def toJson (settings : Settings) : Json :=
  .object
    [("fallback", .string settings.fallback.keyword),
      ("sort", .boolean settings.sort),
      ("debug", .boolean settings.debug)]

end Settings

end ConditionalStyles
