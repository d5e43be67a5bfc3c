import ConditionalStyles.Json.Token

/-!
# Reading a JSON document

A document is one value and nothing else.  Its tokens are read one at a time,
with the containers still open kept innermost first.  A repeated key of an
object keeps its first position and takes its last value.
-/

namespace ConditionalStyles

namespace Json

/-- A container that is not closed yet. -/
inductive Open where
  /-- An array with the items read so far, latest first. -/
  | array (items : List Json)
  /-- An object with the members read so far and the key of the next one. -/
  | object (members : Entries Json) (key : String)

/-- What may follow in a document, given the open containers. -/
inductive Progress where
  | beforeValue (stack : List Open)
  /-- A value, or the end of an array without items. -/
  | beforeFirstItem (stack : List Open)
  /-- A key, or the end of an object without members. -/
  | beforeFirstKey (stack : List Open)
  | beforeKey (stack : List Open) (members : Entries Json)
  | beforeColon (stack : List Open) (members : Entries Json) (key : String)
  | afterValue (stack : List Open) (value : Json)

def Progress.start : Progress := .beforeValue []

/-- Go on where a value is due. -/
def Progress.takeValue (limit : Nat) (stack : List Open) (token : Token) :
    Option Progress :=
  match token with
  | .null => some (.afterValue stack .null)
  | .boolean value => some (.afterValue stack (.boolean value))
  | .number value => some (.afterValue stack (.number value))
  | .string text => some (.afterValue stack (.string text))
  | .openArray => if stack.length < limit then some (.beforeFirstItem stack) else none
  | .openObject => if stack.length < limit then some (.beforeFirstKey stack) else none
  | _ => none

/-- Go on by one token.  At most `limit` containers may be open at once. -/
def Progress.step (limit : Nat) : Progress → Token → Option Progress
  | .beforeValue stack, token => Progress.takeValue limit stack token
  | .beforeFirstItem stack, .closeArray => some (.afterValue stack (.array []))
  | .beforeFirstItem stack, token => Progress.takeValue limit (.array [] :: stack) token
  | .beforeFirstKey stack, .closeObject => some (.afterValue stack (.object []))
  | .beforeFirstKey stack, .string key => some (.beforeColon stack [] key)
  | .beforeKey stack members, .string key => some (.beforeColon stack members key)
  | .beforeColon stack members key, .colon =>
      some (.beforeValue (.object members key :: stack))
  | .afterValue (.array items :: stack) value, .comma =>
      some (.beforeValue (.array (value :: items) :: stack))
  | .afterValue (.array items :: stack) value, .closeArray =>
      some (.afterValue stack (.array (value :: items).reverse))
  | .afterValue (.object members key :: stack) value, .comma =>
      some (.beforeKey stack (Entries.insert members key value))
  | .afterValue (.object members key :: stack) value, .closeObject =>
      some (.afterValue stack (.object (Entries.insert members key value)))
  | _, _ => none

def Progress.finish : Progress → Option Json
  | .afterValue [] value => some value
  | _ => none

def ofTokens? (limit : Nat) (tokens : List Token) : Option Json :=
  (tokens.foldlM (Progress.step limit) Progress.start).bind Progress.finish

def nestingLimit : Nat := 127

def parse? (text : String) : Option Json :=
  (tokens? text).bind (ofTokens? nestingLimit)

end Json

end ConditionalStyles
