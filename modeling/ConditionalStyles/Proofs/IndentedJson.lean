import ConditionalStyles.Proofs.PrintedJson
import ConditionalStyles.Proofs.PrintedNumbers

/-!
# Reading indented JSON

An indented text is a sequence of pieces, and only a number can run into the piece
behind it.  Printing never lets it, so that the tokens of a text are those of the
value it was printed for, if its number literals are rounded correctly.  Whether they
are can be seen from the text alone.  A compact text has the same pieces without the
white space.
-/

namespace ConditionalStyles

namespace Json

/-! ## Numbers as tokens -/

def startsNumber (character : Char) : Bool :=
  character == '-' || character.isDigit

theorem literal?_eq_none {first : Char} (start : startsNumber first = false)
    (rest : List Char) : literal? (first :: rest) = none := by
  simp only [startsNumber, Bool.or_eq_false_iff, beq_eq_false_iff_ne] at start
  have notZero : first ≠ '0' := by
    rintro rfl
    cases start.2
  simp [literal?, wholePart?, digitRun?, start, notZero]

theorem Literal.Proper.chars_eq_cons {literal : Literal} (proper : literal.Proper) :
    ∃ first after, literal.chars = first :: after ∧ startsNumber first = true := by
  obtain ⟨negative, whole, fraction, exponent⟩ := literal
  cases negative with
  | true => exact ⟨'-', _, rfl, rfl⟩
  | false =>
      obtain ⟨first, after, rfl⟩ := List.exists_cons_of_ne_nil proper.whole.nonempty
      have digit := proper.whole.digit first List.mem_cons_self
      exact ⟨first, _, rfl, by rw [startsNumber, digit, Bool.or_true]⟩

theorem Literal.Proper.token? {literal : Literal} (proper : literal.Proper) {number : Number}
    (denotes : literal.number? = some number) {rest : List Char} (ends : EndsNumber rest) :
    token? (literal.chars ++ rest) = some (.number number, rest) := by
  have token : numberToken? (literal.chars ++ rest) = some (.number number, rest) := by
    rw [numberToken?, Literal.literal?_chars proper ends]
    simp [denotes]
  obtain ⟨first, after, cons, start⟩ := proper.chars_eq_cons
  have differs (other : Char) (noNumber : startsNumber other = false) : first ≠ other := by
    rintro rfl
    cases start.symm.trans noNumber
  rw [cons, List.cons_append] at token ⊢
  simp [Json.token?, punctuation?, differs '[' rfl, differs ']' rfl, differs '\x7b' rfl,
    differs '\x7d' rfl, differs ',' rfl, differs ':' rfl, differs '"' rfl, differs 'n' rfl,
    differs 't' rfl, differs 'f' rfl, token]

/-- A whole number that fits is read back from its text, without a rounding. -/
theorem Literal.exists_literal_of_integer (value : Int) (bounds : FitsWord value) :
    ∃ literal : Literal, literal.Proper ∧
      literal.chars = (Number.integer value bounds).text.toList ∧
      literal.number? = some (.integer value bounds) := by
  have read := Numeral.ofChars_chars (show 2 ≤ 10 by decide) (by decide) value.natAbs
  refine ⟨⟨decide (value < 0), Numeral.chars 10 value.natAbs, none, none⟩,
    ⟨IsRun.chars _, ?_, nofun, nofun⟩, ?_, ?_⟩
  · by_cases zero : value.natAbs = 0
    · exact .inl (by rw [zero, Numeral.chars, Numeral.digits]; rfl)
    · exact .inr (significand_chars zero).leading
  · simp [Literal.chars, fractionChars, exponentChars, Number.text]
  · have signed : (if value < 0 then -(value.natAbs : Int) else value.natAbs) = value := by
      split <;> omega
    have unsignedZero : 0 ≤ value ∨ ¬ value = 0 := by omega
    simp only [number?, read, decide_eq_true_eq, signed]
    rw [dif_pos bounds]
    simp [isWhole, unsignedZero]

/-- A number is read back from its text, if its literal is rounded correctly. -/
theorem Literal.exists_literal_of_number (number : Number) :
    ∃ literal : Literal, literal.Proper ∧ literal.chars = number.text.toList ∧
      (literal.IsRounded → literal.number? = some number) := by
  cases number with
  | integer value bounds =>
      obtain ⟨literal, proper, chars, denotes⟩ := exists_literal_of_integer value bounds
      exact ⟨literal, proper, chars, fun _ => denotes⟩
  | float value => exact exists_literal_of_float value

/-! ## Literals of a text -/

/-- The number literals of a text, from left to right.  Strings are passed over whole. -/
def literalsIn (text : List Char) : List Literal :=
  match text with
  | [] => []
  | first :: rest =>
      match _next : literal? (first :: rest) with
      | some (literal, rest) => literal :: literalsIn rest
      | none =>
          match _next : token? (first :: rest) with
          | some (_, rest) => literalsIn rest
          | none => literalsIn rest
termination_by text.length
decreasing_by
  · exact literal?_length _next
  · exact token?_length _next
  · simp

theorem literalsIn_of_literal? {text rest : List Char} {literal : Literal}
    (next : literal? text = some (literal, rest)) :
    literalsIn text = literal :: literalsIn rest := by
  cases text with
  | nil => cases next
  | cons first after =>
      rw [literalsIn]
      split
      · simp_all
      · simp_all

theorem literalsIn_of_token? {first : Char} {after rest : List Char} {token : Token}
    (start : startsNumber first = false)
    (next : token? (first :: after) = some (token, rest)) :
    literalsIn (first :: after) = literalsIn rest := by
  have noLiteral := literal?_eq_none start after
  rw [literalsIn]
  split
  · simp_all
  · split
    · simp_all
    · simp_all

theorem literalsIn_blank {blank : Char} (isBlank : isBlank blank = true) (rest : List Char) :
    literalsIn (blank :: rest) = literalsIn rest := by
  have noToken := token?_blank isBlank rest
  have start : startsNumber blank = false := by
    simp only [Json.isBlank, Bool.or_eq_true, decide_eq_true_eq] at isBlank
    rcases isBlank with ((rfl | rfl) | rfl) | rfl <;> rfl
  have noLiteral := literal?_eq_none start rest
  rw [literalsIn]
  split
  · simp_all
  · split
    · simp_all
    · simp_all

/-! ## Pieces of an indented text -/

def Piece.token? : Piece → Option Token
  | .token unit => some unit
  | _ => none

def written (pieces : List Piece) : List Char :=
  pieces.flatMap fun piece => piece.text.toList

def Piece.isNumber : Piece → Bool
  | .token (.number _) => true
  | _ => false

/-- No number runs into the piece behind it. -/
def Separated : List Piece → Prop
  | [] => True
  | piece :: rest => (piece.isNumber = true → EndsNumber (written rest)) ∧ Separated rest

theorem Separated.cons {piece : Piece} {rest : List Piece} (noNumber : piece.isNumber = false)
    (separated : Separated rest) : Separated (piece :: rest) :=
  ⟨fun number => Bool.noConfusion (noNumber.symm.trans number), separated⟩

theorem endsNumber_cons (first : Char) (stops : continuesNumber first = false)
    (rest : List Char) : EndsNumber (first :: rest) := by
  rintro _ ⟨⟩
  exact stops

theorem endsNumber_newline (level : Nat) (rest : List Piece) :
    EndsNumber (written (.newline level :: rest)) := by
  rw [written, List.flatMap_cons, Piece.text, String.toList_ofList]
  exact endsNumber_cons '\n' rfl _

theorem endsNumber_piecesOfItems (level : Nat) (items : List Json) (rest : List Piece) :
    EndsNumber (written (piecesOfItems level items ++ rest)) := by
  cases items with
  | nil => exact endsNumber_newline level _
  | cons item items => exact endsNumber_cons ',' rfl _

theorem endsNumber_piecesOfMembers (level : Nat) (members : Entries Json) (rest : List Piece) :
    EndsNumber (written (piecesOfMembers level members ++ rest)) := by
  cases members with
  | nil => exact endsNumber_newline level _
  | cons member members => exact endsNumber_cons ',' rfl _

mutual

/-- The pieces of a value are separated, if what follows does not continue a number. -/
theorem separated_pieces (level : Nat) (value : Json) {rest : List Piece}
    (ends : EndsNumber (written rest)) (separated : Separated rest) :
    Separated (value.pieces level ++ rest) := by
  match value with
  | .null => exact separated.cons rfl
  | .boolean _ => exact separated.cons rfl
  | .number _ => exact ⟨fun _ => ends, separated⟩
  | .string _ => exact separated.cons rfl
  | .array [] => exact (separated.cons rfl).cons rfl
  | .array (item :: items) =>
      have behind := separated_piecesOfItems level items separated
      have inside := separated_pieces (level + 1) item
        (endsNumber_piecesOfItems level items rest) behind
      rw [pieces, List.append_assoc]
      exact (inside.cons rfl).cons rfl
  | .object [] => exact (separated.cons rfl).cons rfl
  | .object ((key, member) :: members) =>
      have behind := separated_piecesOfMembers level members separated
      have inside := separated_pieces (level + 1) member
        (endsNumber_piecesOfMembers level members rest) behind
      rw [pieces, List.append_assoc]
      exact ((((inside.cons rfl).cons rfl).cons rfl).cons rfl).cons rfl

theorem separated_piecesOfItems (level : Nat) (items : List Json) {rest : List Piece}
    (separated : Separated rest) : Separated (piecesOfItems level items ++ rest) := by
  match items with
  | [] => exact (separated.cons rfl).cons rfl
  | item :: items =>
      have behind := separated_piecesOfItems level items separated
      have inside := separated_pieces (level + 1) item
        (endsNumber_piecesOfItems level items rest) behind
      rw [piecesOfItems, List.append_assoc]
      exact (inside.cons rfl).cons rfl

theorem separated_piecesOfMembers (level : Nat) (members : Entries Json) {rest : List Piece}
    (separated : Separated rest) : Separated (piecesOfMembers level members ++ rest) := by
  match members with
  | [] => exact (separated.cons rfl).cons rfl
  | (key, member) :: members =>
      have behind := separated_piecesOfMembers level members separated
      have inside := separated_pieces (level + 1) member
        (endsNumber_piecesOfMembers level members rest) behind
      rw [piecesOfMembers, List.append_assoc]
      exact ((((inside.cons rfl).cons rfl).cons rfl).cons rfl).cons rfl

end

mutual

/-- The white space of a text is not part of any token. -/
theorem tokens_pieces (level : Nat) (value : Json) :
    (value.pieces level).filterMap Piece.token? = value.tokens := by
  match value with
  | .null => rfl
  | .boolean _ => rfl
  | .number _ => rfl
  | .string _ => rfl
  | .array [] => rfl
  | .array (item :: items) =>
      have inside : (item.pieces (level + 1) ++ piecesOfItems level items).filterMap
          Piece.token? = item.tokens ++ tokensOfItems items := by
        rw [List.filterMap_append, tokens_pieces, tokens_piecesOfItems]
      exact congrArg (.openArray :: ·) inside
  | .object [] => rfl
  | .object ((key, member) :: members) =>
      have inside : (member.pieces (level + 1) ++ piecesOfMembers level members).filterMap
          Piece.token? = member.tokens ++ tokensOfMembers members := by
        rw [List.filterMap_append, tokens_pieces, tokens_piecesOfMembers]
      exact congrArg (.openObject :: .string key :: .colon :: ·) inside

theorem tokens_piecesOfItems (level : Nat) (items : List Json) :
    (piecesOfItems level items).filterMap Piece.token? = tokensOfItems items := by
  match items with
  | [] => rfl
  | item :: items =>
      have inside : (item.pieces (level + 1) ++ piecesOfItems level items).filterMap
          Piece.token? = item.tokens ++ tokensOfItems items := by
        rw [List.filterMap_append, tokens_pieces, tokens_piecesOfItems]
      exact congrArg (.comma :: ·) inside

theorem tokens_piecesOfMembers (level : Nat) (members : Entries Json) :
    (piecesOfMembers level members).filterMap Piece.token? = tokensOfMembers members := by
  match members with
  | [] => rfl
  | (key, member) :: members =>
      have inside : (member.pieces (level + 1) ++ piecesOfMembers level members).filterMap
          Piece.token? = member.tokens ++ tokensOfMembers members := by
        rw [List.filterMap_append, tokens_pieces, tokens_piecesOfMembers]
      exact congrArg (.comma :: .string key :: .colon :: ·) inside

end

/-! ## Tokens of an indented text -/

theorem Token.exists_text_eq_cons {token : Token} (noNumber : ∀ value, token ≠ .number value) :
    ∃ first after, token.text.toList = first :: after ∧ startsNumber first = false := by
  cases token with
  | openArray => exact ⟨'[', [], rfl, rfl⟩
  | closeArray => exact ⟨']', [], rfl, rfl⟩
  | openObject => exact ⟨'\x7b', [], rfl, rfl⟩
  | closeObject => exact ⟨'\x7d', [], rfl, rfl⟩
  | comma => exact ⟨',', [], rfl, rfl⟩
  | colon => exact ⟨':', [], rfl, rfl⟩
  | null => exact ⟨'n', _, rfl, rfl⟩
  | boolean value =>
      cases value with
      | true => exact ⟨'t', _, rfl, rfl⟩
      | false => exact ⟨'f', _, rfl, rfl⟩
  | number value => exact absurd rfl (noNumber value)
  | string text =>
      rw [Token.text, quote, String.toList_ofList]
      exact ⟨'"', _, rfl, rfl⟩

theorem scan_blanks {blanks : List Char}
    (blank : ∀ character ∈ blanks, isBlank character = true) (read : List Token)
    (rest : List Char) :
    tokensAfter? read (blanks ++ rest) = tokensAfter? read rest ∧
      literalsIn (blanks ++ rest) = literalsIn rest := by
  induction blanks with
  | nil => exact ⟨rfl, rfl⟩
  | cons first blanks ih =>
      have tail := ih fun character mem => blank character (List.mem_cons_of_mem first mem)
      have isBlank := blank first List.mem_cons_self
      rw [List.cons_append, tokensAfter?, if_pos isBlank, literalsIn_blank isBlank]
      exact tail

theorem Piece.isBlank_of_mem {piece : Piece} (noToken : piece.token? = none) {character : Char}
    (mem : character ∈ piece.text.toList) : isBlank character = true := by
  cases piece with
  | token unit => cases noToken
  | space => exact List.mem_singleton.1 mem ▸ rfl
  | newline level =>
      rw [Piece.text, String.toList_ofList] at mem
      rcases List.mem_cons.1 mem with rfl | mem
      · rfl
      · rw [List.eq_of_mem_replicate mem]
        rfl

/-- A token that is no number is read whatever follows, and holds no literal. -/
theorem Token.literalsIn_append {token : Token} (noNumber : ∀ value, token ≠ .number value)
    (rest : List Char) : literalsIn (token.text.toList ++ rest) = literalsIn rest := by
  have next := Token.selfDelimiting_of_not_number noNumber rest
  obtain ⟨first, after, cons, start⟩ := Token.exists_text_eq_cons noNumber
  rw [cons, List.cons_append] at next ⊢
  exact literalsIn_of_token? start next

theorem token?_number {number : Number} {rest : List Char} (ends : EndsNumber rest)
    (rounded : ∀ literal ∈ literalsIn (number.text.toList ++ rest), literal.IsRounded) :
    token? (number.text.toList ++ rest) = some (.number number, rest) ∧
      ∀ literal ∈ literalsIn rest, literal.IsRounded := by
  obtain ⟨literal, proper, chars, denotes⟩ := Literal.exists_literal_of_number number
  rw [← chars] at rounded ⊢
  rw [literalsIn_of_literal? (Literal.literal?_chars proper ends)] at rounded
  exact ⟨proper.token? (denotes (rounded literal List.mem_cons_self)) ends,
    fun other mem => rounded other (List.mem_cons_of_mem literal mem)⟩

/-- The tokens of separated pieces are read, if the literals among them are rounded
correctly. -/
theorem tokensAfter?_written {pieces : List Piece} (separated : Separated pieces)
    (rounded : ∀ literal ∈ literalsIn (written pieces), literal.IsRounded)
    (read : List Token) :
    tokensAfter? read (written pieces) =
      some (read.reverse ++ pieces.filterMap Piece.token?) := by
  induction pieces generalizing read with
  | nil => rw [written, List.flatMap_nil, tokensAfter?, List.filterMap_nil, List.append_nil]
  | cons piece rest ih =>
      have text : written (piece :: rest) = piece.text.toList ++ written rest := List.flatMap_cons
      rw [text] at rounded ⊢
      cases isToken : piece.token? with
      | none =>
          have blank := scan_blanks (fun _ => Piece.isBlank_of_mem isToken) read (written rest)
          rw [blank.2] at rounded
          rw [blank.1, List.filterMap_cons_none isToken]
          exact ih separated.2 rounded read
      | some token =>
          suffices step : token? (piece.text.toList ++ written rest) =
                some (token, written rest) ∧
              ∀ literal ∈ literalsIn (written rest), literal.IsRounded by
            rw [tokensAfter?_of_token? step.1, ih separated.2 step.2, List.reverse_cons,
              List.append_assoc, List.singleton_append, List.filterMap_cons_some isToken]
          cases piece with
          | space => cases isToken
          | newline level => cases isToken
          | token unit =>
              cases isToken
              rw [Piece.text] at rounded ⊢
              rcases Classical.em (∃ value, token = .number value) with ⟨value, rfl⟩ | other
              · exact token?_number (separated.1 rfl) rounded
              · have noNumber (value : Number) : token ≠ .number value :=
                  fun same => other ⟨value, same⟩
                rw [Token.literalsIn_append noNumber] at rounded
                exact ⟨Token.selfDelimiting_of_not_number noNumber _, rounded⟩

/-- A value is read back from a line with its indented text, if it nests within the limit and
the literals in the text are rounded correctly. -/
theorem parse?_indented {value : Json} (wellFormed : value.WellFormed)
    (nested : value.nesting ≤ nestingLimit)
    (rounded : ∀ literal ∈ literalsIn (value.indented ++ "\n").toList, literal.IsRounded) :
    parse? (value.indented ++ "\n") = some value := by
  have text : (value.indented ++ "\n").toList = written (value.pieces 0 ++ [.newline 0]) := by
    rw [String.toList_append, indented, String.toList_join, List.flatMap_map, written,
      List.flatMap_append]
    rfl
  have separated : Separated (value.pieces 0 ++ [.newline 0]) :=
    separated_pieces 0 value (endsNumber_newline 0 []) ⟨nofun, trivial⟩
  rw [text] at rounded
  have tokens : tokens? (value.indented ++ "\n") = some value.tokens := by
    rw [tokens?, text, tokensAfter?_written separated rounded, List.filterMap_append,
      tokens_pieces]
    simp [Piece.token?]
  rw [parse?, tokens, Option.bind_some, ofTokens?_tokens wellFormed nested]

/-! ## Compact texts -/

theorem endsNumber_tokensOfItems (items : List Json) (rest : List Piece) :
    EndsNumber (written ((tokensOfItems items).map Piece.token ++ rest)) := by
  cases items with
  | nil => exact endsNumber_cons ']' rfl _
  | cons item items => exact endsNumber_cons ',' rfl _

theorem endsNumber_tokensOfMembers (members : Entries Json) (rest : List Piece) :
    EndsNumber (written ((tokensOfMembers members).map Piece.token ++ rest)) := by
  cases members with
  | nil => exact endsNumber_cons '\x7d' rfl _
  | cons member members => exact endsNumber_cons ',' rfl _

mutual

theorem separated_tokens (value : Json) {rest : List Piece}
    (ends : EndsNumber (written rest)) (separated : Separated rest) :
    Separated (value.tokens.map Piece.token ++ rest) := by
  match value with
  | .null => exact separated.cons rfl
  | .boolean _ => exact separated.cons rfl
  | .number _ => exact ⟨fun _ => ends, separated⟩
  | .string _ => exact separated.cons rfl
  | .array [] => exact (separated.cons rfl).cons rfl
  | .array (item :: items) =>
      have inside := separated_tokens item (endsNumber_tokensOfItems items rest)
        (separated_tokensOfItems items separated)
      rw [← List.append_assoc, ← List.map_append] at inside
      exact inside.cons rfl
  | .object [] => exact (separated.cons rfl).cons rfl
  | .object ((key, member) :: members) =>
      have inside := separated_tokens member (endsNumber_tokensOfMembers members rest)
        (separated_tokensOfMembers members separated)
      rw [← List.append_assoc, ← List.map_append] at inside
      exact ((inside.cons rfl).cons rfl).cons rfl

theorem separated_tokensOfItems (items : List Json) {rest : List Piece}
    (separated : Separated rest) :
    Separated ((tokensOfItems items).map Piece.token ++ rest) := by
  match items with
  | [] => exact separated.cons rfl
  | item :: items =>
      have inside := separated_tokens item (endsNumber_tokensOfItems items rest)
        (separated_tokensOfItems items separated)
      rw [← List.append_assoc, ← List.map_append] at inside
      exact inside.cons rfl

theorem separated_tokensOfMembers (members : Entries Json) {rest : List Piece}
    (separated : Separated rest) :
    Separated ((tokensOfMembers members).map Piece.token ++ rest) := by
  match members with
  | [] => exact separated.cons rfl
  | (key, member) :: members =>
      have inside := separated_tokens member (endsNumber_tokensOfMembers members rest)
        (separated_tokensOfMembers members separated)
      rw [← List.append_assoc, ← List.map_append] at inside
      exact ((inside.cons rfl).cons rfl).cons rfl

end

/-- A value is read back from its compact text, if it nests within the limit and the literals
in the text are rounded correctly. -/
theorem parse?_compact_of_isRounded {value : Json} (wellFormed : value.WellFormed)
    (nested : value.nesting ≤ nestingLimit)
    (rounded : ∀ literal ∈ literalsIn value.compact.toList, literal.IsRounded) :
    parse? value.compact = some value := by
  have text : value.compact.toList = written (value.tokens.map Piece.token) := by
    rw [compact, String.toList_join, List.flatMap_map, written, List.flatMap_map]
    rfl
  have separated : Separated (value.tokens.map Piece.token) := by
    have ends : EndsNumber (written []) := by
      intro first head
      cases head
    have alone := separated_tokens value ends trivial
    rwa [List.append_nil] at alone
  rw [text] at rounded
  have tokens : tokens? value.compact = some value.tokens := by
    rw [tokens?, text, tokensAfter?_written separated rounded, List.filterMap_map]
    exact congrArg some (List.filterMap_some)
  rw [parse?, tokens, Option.bind_some, ofTokens?_tokens wellFormed nested]

end Json

end ConditionalStyles
