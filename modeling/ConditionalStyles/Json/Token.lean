import ConditionalStyles.Json.Literal
import ConditionalStyles.Json.Quoted

/-!
# JSON tokens

A JSON text is a sequence of tokens with white space between them.  This file
writes a token and reads the tokens of a text.
-/

namespace ConditionalStyles

namespace Json

inductive Token where
  | openArray
  | closeArray
  | openObject
  | closeObject
  | comma
  | colon
  | null
  | boolean (value : Bool)
  | number (value : Number)
  | string (text : String)
deriving DecidableEq

def Token.text : Token → String
  | .openArray => "["
  | .closeArray => "]"
  | .openObject => "\x7b"
  | .closeObject => "\x7d"
  | .comma => ","
  | .colon => ":"
  | .null => "null"
  | .boolean true => "true"
  | .boolean false => "false"
  | .number value => value.text
  | .string text => quote text

/-- Whether a character may stand between tokens. -/
def isBlank (character : Char) : Bool :=
  character = ' ' || character = '\t' || character = '\n' || character = '\r'

def punctuation? (character : Char) : Option Token :=
  if character = '[' then some .openArray
  else if character = ']' then some .closeArray
  else if character = '\x7b' then some .openObject
  else if character = '\x7d' then some .closeObject
  else if character = ',' then some .comma
  else if character = ':' then some .colon
  else none

def keyword? (word : List Char) (token : Token) (text : List Char) :
    Option (Token × List Char) :=
  if word.isPrefixOf text then some (token, text.drop word.length) else none

def numberToken? (text : List Char) : Option (Token × List Char) :=
  match literal? text with
  | none => none
  | some (literal, rest) => literal.number?.map fun number => (.number number, rest)

/-- The token at the start of a text that does not start with white space. -/
def token? (text : List Char) : Option (Token × List Char) :=
  match text with
  | [] => none
  | first :: rest =>
      match punctuation? first with
      | some token => some (token, rest)
      | none =>
          if first = '"' then
            (stringRest? [] rest).map fun (content, rest) => (.string content, rest)
          else if first = 'n' then keyword? ['n', 'u', 'l', 'l'] .null text
          else if first = 't' then keyword? ['t', 'r', 'u', 'e'] (.boolean true) text
          else if first = 'f' then
            keyword? ['f', 'a', 'l', 's', 'e'] (.boolean false) text
          else numberToken? text

theorem keyword?_length {word text rest : List Char} {token read : Token}
    (nonempty : word ≠ []) (found : keyword? word token text = some (read, rest)) :
    rest.length < text.length := by
  unfold keyword? at found
  split at found
  · rename_i starts
    simp only [Option.some.injEq, Prod.mk.injEq] at found
    obtain ⟨-, rfl⟩ := found
    have bound := (List.isPrefixOf_iff_prefix.1 starts).length_le
    have positive := List.length_pos_iff.2 nonempty
    simp only [List.length_drop]
    omega
  · simp at found

theorem numberToken?_length {text rest : List Char} {token : Token}
    (read : numberToken? text = some (token, rest)) : rest.length < text.length := by
  unfold numberToken? at read
  split at read
  · simp at read
  · rename_i literal tail found
    have shorter := literal?_length found
    obtain ⟨number, -, same⟩ := Option.map_eq_some_iff.1 read
    simp only [Prod.mk.injEq] at same
    obtain ⟨-, rfl⟩ := same
    exact shorter

theorem token?_length {text rest : List Char} {token : Token}
    (read : token? text = some (token, rest)) : rest.length < text.length := by
  unfold token? at read
  split at read
  · simp at read
  · rename_i first after
    split at read
    · simp only [Option.some.injEq, Prod.mk.injEq] at read
      obtain ⟨-, rfl⟩ := read
      simp
    · split at read
      · obtain ⟨⟨content, tail⟩, found, same⟩ := Option.map_eq_some_iff.1 read
        have shorter := stringRest?_length found
        simp only [Prod.mk.injEq] at same
        obtain ⟨-, rfl⟩ := same
        simp only [List.length_cons]
        omega
      · split at read
        · exact keyword?_length (by simp) read
        · split at read
          · exact keyword?_length (by simp) read
          · split at read
            · exact keyword?_length (by simp) read
            · exact numberToken?_length read

/-- The tokens of a text, after those read so far, which are given latest
first. -/
def tokensAfter? (read : List Token) (text : List Char) : Option (List Token) :=
  match text with
  | [] => some read.reverse
  | first :: rest =>
      if isBlank first then tokensAfter? read rest
      else
        match _next : token? (first :: rest) with
        | none => none
        | some (token, rest) => tokensAfter? (token :: read) rest
termination_by text.length
decreasing_by
  · simp
  · exact token?_length _next

/-- The tokens of a text; none if some part of it is no token. -/
def tokens? (text : String) : Option (List Token) :=
  tokensAfter? [] text.toList

end Json

end ConditionalStyles
