import ConditionalStyles.Numeral
import ConditionalStyles.Condition.Encoding

/-!
# Identifiers of hooks

A hook is identified by a hash of its condition, with its name in front if the
identifier is to be readable.  The same name and condition always get the same
identifier, so independently compiled copies of a configuration agree.
-/

namespace ConditionalStyles

namespace Identifier

def mask : UInt32 := 0x7fffffff

/-- Take one more code unit into a hash: the hash times 31 plus the unit, in
31 bits. -/
def addUnit (hash : UInt32) (unit : UInt16) : UInt32 :=
  ((hash <<< 5) - hash + unit.toUInt32) &&& mask

def hashNumber (text : String) : UInt32 :=
  (Text.units text).foldl addUnit 0

/-- The hash of a text in base 36. -/
def hash (text : String) : String :=
  Numeral.text 36 (hashNumber text).toNat

def ofCondition (condition : Condition) : String :=
  hash condition.text

def isPlain (character : Char) : Bool :=
  character.isAlphanum || character = '-'

/-- A hook name with one underscore for every code unit of a character that
may not stand in an identifier. -/
def sanitize (name : String) : String :=
  String.ofList (name.toList.flatMap fun character =>
    if isPlain character then [character]
    else (Text.unitsOfChar character).map fun _ => '_')

/-- A rule that gives every hook an identifier from its name and its normal
form. -/
abbrev Scheme := String → Condition → String

/-- Identifiers that are the hash of the condition alone. -/
def anonymous : Scheme :=
  fun _ condition => ofCondition condition

/-- Identifiers that show the name of the hook before the hash. -/
def readable : Scheme :=
  fun name condition => sanitize name ++ "-" ++ ofCondition condition

/-- Identifiers that depend on the name of the hook alone. -/
def named (rule : String → String) : Scheme :=
  fun name _ => rule name

end Identifier

end ConditionalStyles
