import ConditionalStyles.Json.Token

/-!
# Printing JSON

A value has one sequence of tokens.  The compact text is these tokens with
nothing between them; the indented text adds white space and nothing else.
-/

namespace ConditionalStyles

namespace Json

mutual

def tokens : Json → List Token
  | .null => [.null]
  | .boolean value => [.boolean value]
  | .number value => [.number value]
  | .string text => [.string text]
  | .array [] => [.openArray, .closeArray]
  | .array (item :: rest) => .openArray :: item.tokens ++ tokensOfItems rest
  | .object [] => [.openObject, .closeObject]
  | .object ((key, value) :: rest) =>
      .openObject :: .string key :: .colon :: value.tokens ++ tokensOfMembers rest

/-- The items after the first one, and the end of the array. -/
def tokensOfItems : List Json → List Token
  | [] => [.closeArray]
  | item :: rest => .comma :: item.tokens ++ tokensOfItems rest

def tokensOfMembers : Entries Json → List Token
  | [] => [.closeObject]
  | (key, value) :: rest =>
      .comma :: .string key :: .colon :: value.tokens ++ tokensOfMembers rest

end

def compact (value : Json) : String :=
  String.join (value.tokens.map Token.text)

/-- A part of an indented text. -/
inductive Piece where
  | token (unit : Token)
  | space
  /-- A line break and the indentation of the next line, two spaces a level. -/
  | newline (level : Nat)

def Piece.text : Piece → String
  | .token unit => unit.text
  | .space => " "
  | .newline level => String.ofList ('\n' :: List.replicate (2 * level) ' ')

mutual

/-- The pieces of a value that starts on a line of the given level. -/
def pieces (level : Nat) : Json → List Piece
  | .null => [.token .null]
  | .boolean value => [.token (.boolean value)]
  | .number value => [.token (.number value)]
  | .string text => [.token (.string text)]
  | .array [] => [.token .openArray, .token .closeArray]
  | .array (item :: rest) =>
      .token .openArray :: .newline (level + 1) :: item.pieces (level + 1) ++
        piecesOfItems level rest
  | .object [] => [.token .openObject, .token .closeObject]
  | .object ((key, value) :: rest) =>
      .token .openObject :: .newline (level + 1) :: .token (.string key) ::
        .token .colon :: .space :: value.pieces (level + 1) ++
        piecesOfMembers level rest

def piecesOfItems (level : Nat) : List Json → List Piece
  | [] => [.newline level, .token .closeArray]
  | item :: rest =>
      .token .comma :: .newline (level + 1) :: item.pieces (level + 1) ++
        piecesOfItems level rest

def piecesOfMembers (level : Nat) : Entries Json → List Piece
  | [] => [.newline level, .token .closeObject]
  | (key, value) :: rest =>
      .token .comma :: .newline (level + 1) :: .token (.string key) ::
        .token .colon :: .space :: value.pieces (level + 1) ++
        piecesOfMembers level rest

end

/-- The text of a value with one item or member on each line. -/
def indented (value : Json) : String :=
  String.join ((value.pieces 0).map Piece.text)

end Json

end ConditionalStyles
