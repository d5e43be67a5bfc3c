import ConditionalStyles.Json.Document
import ConditionalStyles.Json.Printer

/-!
# Reading printed JSON

A printed text is read back in three steps, as it was written: the characters of a
string from their escapes, the tokens from the text, and the value from its tokens.
Reading tokens keeps the open containers on a stack, so that the nesting of a value
is the room that it needs there.  The last step also works without a limit: it is
what tells values of any depth apart.
-/

namespace ConditionalStyles

namespace Json

/-! ## Characters of a string -/

theorem hexUnit?_control {point : Nat} (control : point < 0x20) (rest : List Char) :
    hexUnit? ('0' :: '0' :: Numeral.digitChar (point / 16) ::
      Numeral.digitChar (point % 16) :: rest) = some (point, rest) := by
  have zero : Numeral.digit? 16 '0' = some 0 := by decide
  have high : Numeral.digit? 16 (Numeral.digitChar (point / 16)) = some (point / 16) :=
    Numeral.digit?_digitChar (by decide) (by omega)
  have low : Numeral.digit? 16 (Numeral.digitChar (point % 16)) = some (point % 16) :=
    Numeral.digit?_digitChar (by decide) (by omega)
  have digits : ['0', '0', Numeral.digitChar (point / 16), Numeral.digitChar (point % 16)].mapM
      (Numeral.digit? 16) = some [0, 0, point / 16, point % 16] := by
    simp [zero, high, low]
  have total : Numeral.value 16 [0, 0, point / 16, point % 16] = point := by
    simp only [Numeral.value, List.foldl_cons, List.foldl_nil]
    omega
  rw [hexUnit?]
  simp only [digits, total]

theorem numericEscape?_control {character : Char} (control : character.toNat < 0x20)
    (rest : List Char) :
    numericEscape? ('0' :: '0' :: Numeral.digitChar (character.toNat / 16) ::
      Numeral.digitChar (character.toNat % 16) :: rest) = some (character, rest) := by
  have notLead : ¬ Text.leadBase ≤ character.toNat := by
    rw [Text.leadBase]
    omega
  have notTrail : ¬ Text.trailBase ≤ character.toNat := by
    rw [Text.trailBase]
    omega
  rw [numericEscape?, hexUnit?_control control]
  simp [Text.isLead, Text.isTrail, notLead, notTrail]

theorem escaped?_letter {character letter : Char}
    (found : escapeLetter? character = some letter) (rest : List Char) :
    escaped? (letter :: rest) = some (character, rest) := by
  unfold escapeLetter? at found
  repeat' split at found
  all_goals cases found
  all_goals subst character; rfl

/-- A character is read back from its escape, whatever follows. -/
theorem stringCharacter?_escape (character : Char) (rest : List Char) :
    stringCharacter? (escape character ++ rest) = some (character, rest) := by
  rw [escape]
  split
  · rename_i letter found
    exact escaped?_letter found rest
  · rename_i noLetter
    split
    · rename_i control
      exact numericEscape?_control control rest
    · rename_i printable
      have notBackslash : character ≠ '\\' := by
        rintro rfl
        cases noLetter
      rw [List.singleton_append, stringCharacter?]
      · exact if_neg printable
      · exact notBackslash

theorem escape_eq_cons (character : Char) :
    ∃ first rest, escape character = first :: rest ∧ first ≠ '"' := by
  rw [escape]
  split
  · exact ⟨'\\', _, rfl, by decide⟩
  · rename_i noLetter
    split
    · exact ⟨'\\', _, rfl, by decide⟩
    · refine ⟨character, [], rfl, ?_⟩
      rintro rfl
      cases noLetter

theorem stringRest?_of_stringCharacter? {text rest read : List Char} {first character : Char}
    (notQuote : first ≠ '"')
    (next : stringCharacter? (first :: text) = some (character, rest)) :
    stringRest? read (first :: text) = stringRest? (character :: read) rest := by
  rw [stringRest?, if_neg notQuote]
  split
  · simp_all
  · simp_all

theorem stringRest?_escape (text read rest : List Char) :
    stringRest? read (text.flatMap escape ++ '"' :: rest) =
      some (String.ofList (read.reverse ++ text), rest) := by
  induction text generalizing read with
  | nil =>
      rw [List.flatMap_nil, List.nil_append, stringRest?, if_pos rfl, List.append_nil]
  | cons character text ih =>
      obtain ⟨first, after, written, notQuote⟩ := escape_eq_cons character
      have next := stringCharacter?_escape character (text.flatMap escape ++ '"' :: rest)
      rw [written, List.cons_append] at next
      rw [List.flatMap_cons, List.append_assoc, written, List.cons_append,
        stringRest?_of_stringCharacter? notQuote next, ih, List.reverse_cons,
        List.append_assoc, List.singleton_append]

/-! ## Tokens of a text -/

theorem token?_quote (text : String) (rest : List Char) :
    token? ((quote text).toList ++ rest) = some (.string text, rest) := by
  have content := stringRest?_escape text.toList [] rest
  rw [List.reverse_nil, List.nil_append, String.ofList_toList] at content
  rw [quote, String.toList_ofList, List.cons_append, List.cons_append, List.append_assoc,
    List.singleton_append, token?]
  simp [punctuation?, content]

/-- Whether a token ends with its text, whatever follows. -/
def Token.SelfDelimiting (token : Token) : Prop :=
  ∀ rest, token? (token.text.toList ++ rest) = some (token, rest)

theorem Token.selfDelimiting_of_not_number {token : Token}
    (notNumber : ∀ value, token ≠ .number value) : token.SelfDelimiting := by
  intro rest
  cases token with
  | openArray => rfl
  | closeArray => rfl
  | openObject => rfl
  | closeObject => rfl
  | comma => rfl
  | colon => rfl
  | null => rfl
  | boolean value => cases value <;> rfl
  | number value => exact absurd rfl (notNumber value)
  | string text => exact token?_quote text rest

theorem token?_blank {first : Char} (blank : isBlank first = true) (rest : List Char) :
    token? (first :: rest) = none := by
  simp only [isBlank, Bool.or_eq_true, decide_eq_true_eq] at blank
  rcases blank with ((rfl | rfl) | rfl) | rfl <;> rfl

theorem tokensAfter?_of_token? {text rest : List Char} {token : Token}
    (next : token? text = some (token, rest)) (read : List Token) :
    tokensAfter? read text = tokensAfter? (token :: read) rest := by
  cases text with
  | nil => cases next
  | cons first after =>
      have notBlank : ¬ isBlank first = true := by
        intro blank
        rw [token?_blank blank] at next
        cases next
      rw [tokensAfter?, if_neg notBlank]
      split
      · simp_all
      · simp_all

theorem tokensAfter?_flatMap {tokens : List Token}
    (selfDelimiting : ∀ token ∈ tokens, token.SelfDelimiting) (read : List Token) :
    tokensAfter? read (tokens.flatMap fun token => token.text.toList) =
      some (read.reverse ++ tokens) := by
  induction tokens generalizing read with
  | nil => rw [List.flatMap_nil, tokensAfter?, List.append_nil]
  | cons token rest ih =>
      have next := selfDelimiting token List.mem_cons_self
        (rest.flatMap fun token => token.text.toList)
      rw [List.flatMap_cons, tokensAfter?_of_token? next,
        ih fun other mem => selfDelimiting other (List.mem_cons_of_mem _ mem),
        List.reverse_cons, List.append_assoc, List.singleton_append]

/-- The tokens of a value are read back from its compact text. -/
theorem tokens?_compact {value : Json}
    (selfDelimiting : ∀ token ∈ value.tokens, token.SelfDelimiting) :
    tokens? value.compact = some value.tokens := by
  rw [tokens?, compact, String.toList_join, List.flatMap_map,
    tokensAfter?_flatMap selfDelimiting]
  rfl

/-! ## Values of tokens -/

namespace Progress

def run (limit : Nat) (progress : Progress) (tokens : List Token) : Option Progress :=
  tokens.foldlM (step limit) progress

section

variable {limit : Nat} {stack : List Open} {progress next : Progress}

theorem run_cons {token : Token} (stepped : progress.step limit token = some next)
    (rest : List Token) : progress.run limit (token :: rest) = next.run limit rest := by
  rw [run, List.foldlM_cons, stepped]
  rfl

theorem run_append {tokens : List Token} (reached : progress.run limit tokens = some next)
    (rest : List Token) : progress.run limit (tokens ++ rest) = next.run limit rest := by
  rw [run, List.foldlM_append, ← run, reached]
  rfl

theorem step_openArray (room : stack.length < limit) :
    step limit (.beforeValue stack) .openArray = some (.beforeFirstItem stack) :=
  if_pos room

theorem step_openObject (room : stack.length < limit) :
    step limit (.beforeValue stack) .openObject = some (.beforeFirstKey stack) :=
  if_pos room

/-- No value starts with the end of an array, so that a value behind an opening bracket
is taken for the first item. -/
theorem run_beforeFirstItem (limit : Nat) (stack : List Open) (value : Json)
    (rest : List Token) :
    run limit (.beforeFirstItem stack) (value.tokens ++ rest) =
      run limit (.beforeValue (.array [] :: stack)) (value.tokens ++ rest) := by
  match value with
  | .null => rfl
  | .boolean _ => rfl
  | .number _ => rfl
  | .string _ => rfl
  | .array [] => rfl
  | .array (_ :: _) => rfl
  | .object [] => rfl
  | .object ((_, _) :: _) => rfl

mutual

/-- Where a value is due its tokens lead behind it, if there is room for its nesting
above the open containers. -/
theorem run_tokens (limit : Nat) (value : Json) (wellFormed : value.WellFormed)
    (stack : List Open) (room : stack.length + value.nesting ≤ limit) :
    run limit (.beforeValue stack) value.tokens = some (.afterValue stack value) := by
  match value with
  | .null => rfl
  | .boolean _ => rfl
  | .number _ => rfl
  | .string _ => rfl
  | .array [] =>
      rw [nesting] at room
      rw [tokens, run_cons (step_openArray (by omega))]
      rfl
  | .array (item :: rest) =>
      rw [nesting, nestingOfItems] at room
      rw [WellFormed, WellFormedItems] at wellFormed
      have first := run_tokens limit item wellFormed.1 (.array [] :: stack)
        (by rw [List.length_cons]; omega)
      rw [tokens, List.cons_append, run_cons (step_openArray (by omega)),
        run_beforeFirstItem, run_append first]
      exact run_tokensOfItems limit rest wellFormed.2 stack [] item (by omega)
  | .object [] =>
      rw [nesting] at room
      rw [tokens, run_cons (step_openObject (by omega))]
      rfl
  | .object ((key, member) :: rest) =>
      rw [nesting, nestingOfMembers] at room
      rw [WellFormed, WellFormedMembers] at wellFormed
      have first := run_tokens limit member wellFormed.2.1 (.object [] key :: stack)
        (by rw [List.length_cons]; omega)
      rw [tokens, List.cons_append, List.cons_append, List.cons_append,
        run_cons (step_openObject (by omega)), run_cons rfl, run_cons rfl, run_append first]
      exact run_tokensOfMembers limit rest wellFormed.2.2 stack [] key member wellFormed.1
        (by omega)

theorem run_tokensOfItems (limit : Nat) (items : List Json)
    (wellFormed : WellFormedItems items) (stack : List Open) (read : List Json) (last : Json)
    (room : stack.length + nestingOfItems items < limit) :
    run limit (.afterValue (.array read :: stack) last) (tokensOfItems items) =
      some (.afterValue stack (.array ((last :: read).reverse ++ items))) := by
  match items with
  | [] =>
      rw [List.append_nil]
      rfl
  | item :: rest =>
      rw [nestingOfItems] at room
      rw [WellFormedItems] at wellFormed
      have first := run_tokens limit item wellFormed.1 (.array (last :: read) :: stack)
        (by rw [List.length_cons]; omega)
      rw [tokensOfItems, List.cons_append, run_cons rfl, run_append first,
        run_tokensOfItems limit rest wellFormed.2 stack (last :: read) item (by omega),
        List.reverse_cons, List.append_assoc, List.singleton_append]

theorem run_tokensOfMembers (limit : Nat) (members : Entries Json)
    (wellFormed : WellFormedMembers members) (stack : List Open) (read : Entries Json)
    (key : String) (last : Json)
    (distinct : (Entries.keys (read ++ (key, last) :: members)).Nodup)
    (room : stack.length + nestingOfMembers members < limit) :
    run limit (.afterValue (.object read key :: stack) last) (tokensOfMembers members) =
      some (.afterValue stack (.object (read ++ (key, last) :: members))) := by
  -- The key is new, so that its member goes to the end.
  have inserted :=
    Entries.insert_of_not_mem (Entries.not_mem_keys_of_nodup distinct) last
  match members with
  | [] =>
      rw [tokensOfMembers, run_cons rfl, inserted]
      rfl
  | (name, member) :: rest =>
      rw [nestingOfMembers] at room
      rw [WellFormedMembers] at wellFormed
      have first := run_tokens limit member wellFormed.1
        (.object (read ++ [(key, last)]) name :: stack) (by rw [List.length_cons]; omega)
      have regrouped : read ++ (key, last) :: (name, member) :: rest =
          (read ++ [(key, last)]) ++ (name, member) :: rest := by
        rw [List.append_assoc, List.singleton_append]
      rw [tokensOfMembers, List.cons_append, List.cons_append, List.cons_append,
        run_cons rfl, inserted, run_cons rfl, run_cons rfl, run_append first, regrouped]
      exact run_tokensOfMembers limit rest wellFormed.2 stack _ name member
        (regrouped ▸ distinct) (by omega)

end

end

end Progress

/-- A value is read back from its tokens, if it nests within the limit. -/
theorem ofTokens?_tokens {limit : Nat} {value : Json} (wellFormed : value.WellFormed)
    (nested : value.nesting ≤ limit) : ofTokens? limit value.tokens = some value := by
  have read := Progress.run_tokens limit value wellFormed [] (by simpa using nested)
  rw [Progress.run] at read
  rw [ofTokens?, Progress.start, read]
  rfl

/-- Values are told apart by their tokens, however deep they nest. -/
theorem eq_of_tokens_eq {first second : Json} (wellFormed : first.WellFormed)
    (wellFormed' : second.WellFormed) (same : first.tokens = second.tokens) :
    first = second := by
  have read := ofTokens?_tokens wellFormed (Nat.le_max_left first.nesting second.nesting)
  have read' := ofTokens?_tokens wellFormed' (Nat.le_max_right first.nesting second.nesting)
  rw [same, read'] at read
  exact (Option.some.inj read).symm

/-! ## Values of a text -/

section

variable {value other : Json} (wellFormed : value.WellFormed)
  (selfDelimiting : ∀ token ∈ value.tokens, token.SelfDelimiting)

include wellFormed selfDelimiting

/-- A value is read back from its compact text, if it nests within the limit. -/
theorem parse?_compact (nested : value.nesting ≤ nestingLimit) :
    parse? value.compact = some value := by
  rw [parse?, tokens?_compact selfDelimiting, Option.bind_some,
    ofTokens?_tokens wellFormed nested]

theorem eq_of_compact_eq (wellFormed' : other.WellFormed)
    (selfDelimiting' : ∀ token ∈ other.tokens, token.SelfDelimiting)
    (same : value.compact = other.compact) : value = other := by
  have read := tokens?_compact selfDelimiting
  rw [same, tokens?_compact selfDelimiting'] at read
  exact eq_of_tokens_eq wellFormed wellFormed' (Option.some.inj read).symm

end

end Json

end ConditionalStyles
