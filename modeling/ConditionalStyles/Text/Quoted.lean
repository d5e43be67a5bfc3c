import ConditionalStyles.Numeral
import ConditionalStyles.Text.Invisible

/-!
# Quoted text in messages

A text is shown between double quotes on one line.  The quote, the backslash,
the tab and the line breaks have a short escape, and every character that is
not visible by itself is shown by its number.
-/

namespace ConditionalStyles

namespace Text

def shortEscape? (character : Char) : Option Char :=
  if character = '\x00' then some '0'
  else if character = '\t' then some 't'
  else if character = '\r' then some 'r'
  else if character = '\n' then some 'n'
  else if character = '\\' then some '\\'
  else if character = '"' then some '"'
  else none

/-- A character as it is shown between quotes. -/
def shown (character : Char) : List Char :=
  match shortEscape? character with
  | some letter => ['\\', letter]
  | none =>
      if isInvisible character then
        ['\\', 'u', '\x7b'] ++ Numeral.chars 16 character.toNat ++ ['\x7d']
      else [character]

def quoted (text : String) : String :=
  String.ofList ('"' :: text.toList.flatMap shown ++ ['"'])

end Text

end ConditionalStyles
