import ConditionalStyles.Numeral
import ConditionalStyles.Text.Units

/-!
# JSON strings

Writing escapes the quote, the backslash and the control characters, and
nothing else.  Reading accepts every escape of the grammar; a surrogate escape
counts only as part of a pair, and a control character must be escaped.
-/

namespace ConditionalStyles

namespace Json

def escapeLetter? (character : Char) : Option Char :=
  if character = '"' then some '"'
  else if character = '\\' then some '\\'
  else if character = Char.ofNat 8 then some 'b'
  else if character = Char.ofNat 9 then some 't'
  else if character = Char.ofNat 10 then some 'n'
  else if character = Char.ofNat 12 then some 'f'
  else if character = Char.ofNat 13 then some 'r'
  else none

/-- A character inside a string: control characters without a letter of their
own become `\u00` and two digits. -/
def escape (character : Char) : List Char :=
  match escapeLetter? character with
  | some letter => ['\\', letter]
  | none =>
      if character.toNat < 0x20 then
        ['\\', 'u', '0', '0', Numeral.digitChar (character.toNat / 16),
          Numeral.digitChar (character.toNat % 16)]
      else [character]

def quote (text : String) : String :=
  String.ofList ('"' :: text.toList.flatMap escape ++ ['"'])

def hexUnit? (text : List Char) : Option (Nat × List Char) :=
  match text with
  | a :: b :: c :: d :: rest =>
      match [a, b, c, d].mapM (Numeral.digit? 16) with
      | some digits => some (Numeral.value 16 digits, rest)
      | none => none
  | _ => none

/-- The character of a numeric escape, from its digits on. -/
def numericEscape? (text : List Char) : Option (Char × List Char) :=
  match hexUnit? text with
  | none => none
  | some (unit, rest) =>
      if Text.isLead unit then
        match rest with
        | '\\' :: 'u' :: rest =>
            match hexUnit? rest with
            | some (trail, rest) =>
                if Text.isTrail trail then some (Text.ofPair unit trail, rest) else none
            | none => none
        | _ => none
      else if Text.isTrail unit then none
      else some (Char.ofNat unit, rest)

def escaped? (text : List Char) : Option (Char × List Char) :=
  match text with
  | [] => none
  | letter :: rest =>
      if letter = '"' ∨ letter = '\\' ∨ letter = '/' then some (letter, rest)
      else if letter = 'b' then some (Char.ofNat 8, rest)
      else if letter = 't' then some (Char.ofNat 9, rest)
      else if letter = 'n' then some (Char.ofNat 10, rest)
      else if letter = 'f' then some (Char.ofNat 12, rest)
      else if letter = 'r' then some (Char.ofNat 13, rest)
      else if letter = 'u' then numericEscape? rest
      else none

/-- The next character inside a string literal, which is not its closing
quote. -/
def stringCharacter? (text : List Char) : Option (Char × List Char) :=
  match text with
  | [] => none
  | '\\' :: rest => escaped? rest
  | character :: rest => if character.toNat < 0x20 then none else some (character, rest)

theorem hexUnit?_length {text rest : List Char} {unit : Nat}
    (read : hexUnit? text = some (unit, rest)) : rest.length < text.length := by
  unfold hexUnit? at read
  split at read
  · split at read
    · simp only [Option.some.injEq, Prod.mk.injEq] at read
      obtain ⟨-, rfl⟩ := read
      simp only [List.length_cons]
      omega
    · simp at read
  · simp at read

theorem numericEscape?_length {text rest : List Char} {character : Char}
    (read : numericEscape? text = some (character, rest)) :
    rest.length < text.length := by
  unfold numericEscape? at read
  split at read
  · simp at read
  · rename_i unit after first
    have shorter := hexUnit?_length first
    split at read
    · split at read
      · rename_i tail
        split at read
        · rename_i trail end_ second
          have shorter' := hexUnit?_length second
          split at read
          · simp only [Option.some.injEq, Prod.mk.injEq] at read
            obtain ⟨-, rfl⟩ := read
            simp only [List.length_cons] at shorter
            omega
          · simp at read
        · simp at read
      · simp at read
    · split at read
      · simp at read
      · simp only [Option.some.injEq, Prod.mk.injEq] at read
        obtain ⟨-, rfl⟩ := read
        exact shorter

theorem escaped?_length {text rest : List Char} {character : Char}
    (read : escaped? text = some (character, rest)) : rest.length < text.length := by
  cases text with
  | nil => simp [escaped?] at read
  | cons letter after =>
      unfold escaped? at read
      simp only at read
      repeat' split at read
      all_goals
        first
        | (simp only [Option.some.injEq, Prod.mk.injEq] at read
           obtain ⟨-, rfl⟩ := read
           simp)
        | (have shorter := numericEscape?_length read
           simp only [List.length_cons]
           omega)
        | simp at read

theorem stringCharacter?_length {text rest : List Char} {character : Char}
    (read : stringCharacter? text = some (character, rest)) :
    rest.length < text.length := by
  unfold stringCharacter? at read
  split at read
  · simp at read
  · have shorter := escaped?_length read
    simp only [List.length_cons]
    omega
  · split at read
    · simp at read
    · simp only [Option.some.injEq, Prod.mk.injEq] at read
      obtain ⟨-, rfl⟩ := read
      simp

/-- The rest of a string literal after its opening quote.  The characters read
so far are given latest first. -/
def stringRest? (read text : List Char) : Option (String × List Char) :=
  match text with
  | [] => none
  | first :: after =>
      if first = '"' then some (String.ofList read.reverse, after)
      else
        match _next : stringCharacter? (first :: after) with
        | none => none
        | some (character, rest) => stringRest? (character :: read) rest
termination_by text.length
decreasing_by exact stringCharacter?_length _next

theorem stringRest?_length {read text rest : List Char} {string : String}
    (found : stringRest? read text = some (string, rest)) :
    rest.length < text.length := by
  fun_induction stringRest? read text with
  | case1 => simp at found
  | case2 read after =>
      simp only [Option.some.injEq, Prod.mk.injEq] at found
      obtain ⟨-, rfl⟩ := found
      simp
  | case3 => simp at found
  | case4 read first after distinct character next found' ih =>
      exact Nat.lt_trans (ih found) (stringCharacter?_length found')

end Json

end ConditionalStyles
