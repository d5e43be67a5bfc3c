import ConditionalStyles.Identifier
import ConditionalStyles.Stylesheet.Emission

/-!
# Names of custom properties

A slot is named by the identifier of its hook, the path of operands that leads
from the hook's condition to the node, a dash and a digit.  Nothing separates
the parts, but each is written in characters of its own: a path in `A` and `B`,
a hash in lower-case letters and digits, so that the parts can be read back from
the end of the name.
-/

namespace ConditionalStyles

namespace Stylesheet

inductive Side where
  | left
  | right
deriving DecidableEq

def Side.letter : Side → Char
  | .left => 'A'
  | .right => 'B'

/-- The identifier of the node that a path of operands leads to. -/
def nodeId (id : String) (path : List Side) : String :=
  id ++ String.ofList (path.map Side.letter)

@[simp] theorem nodeId_nil (id : String) : nodeId id [] = id := by
  simp [nodeId]

@[simp] theorem toList_nodeId (id : String) (path : List Side) :
    (nodeId id path).toList = id.toList ++ path.map Side.letter := by
  simp [nodeId]

/-- Paths that are followed one after the other are followed as one. -/
theorem nodeId_nodeId (id : String) (path path' : List Side) :
    nodeId (nodeId id path) path' = nodeId id (path ++ path') := by
  apply String.toList_injective
  simp

theorem leftId_eq (id : String) : leftId id = nodeId id [.left] :=
  rfl

theorem rightId_eq (id : String) : rightId id = nodeId id [.right] :=
  rfl

theorem Side.letter_injective {first second : Side}
    (same : first.letter = second.letter) : first = second := by
  cases first <;> cases second <;> simp_all [letter]

theorem Side.map_letter_injective {first second : List Side}
    (same : first.map Side.letter = second.map Side.letter) : first = second :=
  List.map_inj_right (fun _ _ => Side.letter_injective) |>.1 same

/-- Different paths from a node lead to nodes with different identifiers. -/
theorem nodeId_injective {id : String} {first second : List Side}
    (same : nodeId id first = nodeId id second) : first = second := by
  have spelled := congrArg String.toList same
  rw [toList_nodeId, toList_nodeId] at spelled
  exact Side.map_letter_injective (List.append_cancel_left spelled)

/-- If two nodes have one identifier, then the hook of one of them is identified
like a node of the other. -/
theorem exists_path_of_nodeId_eq {first second : String} {path path' : List Side}
    (same : nodeId first path = nodeId second path') :
    (∃ between, second = nodeId first between) ∨
      (∃ between, first = nodeId second between) := by
  have spelled := congrArg String.toList same
  rw [toList_nodeId, toList_nodeId, List.append_eq_append_iff] at spelled
  rcases spelled with ⟨word, longer, path_eq⟩ | ⟨word, longer, path_eq⟩
  · obtain ⟨between, rest, -, rfl, -⟩ := List.map_eq_append_iff.1 path_eq
    exact Or.inl ⟨between, String.toList_injective (by rw [toList_nodeId, longer])⟩
  · obtain ⟨between, rest, -, rfl, -⟩ := List.map_eq_append_iff.1 path_eq
    exact Or.inr ⟨between, String.toList_injective (by rw [toList_nodeId, longer])⟩

end Stylesheet

namespace Slot

def digitChar : Slot → Char
  | .whenFalse => '0'
  | .whenTrue => '1'

@[simp] theorem toList_property (slot : Slot) (id : String) :
    (slot.property id).toList =
      '-' :: '-' :: (id.toList ++ ['-', slot.digitChar]) := by
  cases slot <;> simp [property, digit, digitChar]

theorem property_whenFalse (id : String) : whenFalse.property id = "--" ++ id ++ "-0" := by
  apply String.toList_injective
  simp [digitChar]

theorem property_whenTrue (id : String) : whenTrue.property id = "--" ++ id ++ "-1" := by
  apply String.toList_injective
  simp [digitChar]

theorem property_inj {first second : Slot} {id id' : String} :
    first.property id = second.property id' ↔ first = second ∧ id = id' := by
  constructor
  · intro same
    have spelled := congrArg String.toList same
    simp only [toList_property, List.cons.injEq, true_and] at spelled
    obtain ⟨ids, digits⟩ := List.append_inj' spelled rfl
    refine ⟨?_, String.toList_injective ids⟩
    cases first <;> cases second <;> simp_all [digitChar]
  · rintro ⟨rfl, rfl⟩
    rfl

end Slot

namespace Identifier

open Stylesheet

/-! ## Reading a name from its end -/

/-- A text whose last characters are of one kind, up to a character that is not,
has these characters in front when it is read backwards. -/
theorem takeWhile_reverse_append {kind : Char → Bool} {front tail : List Char}
    (inside : ∀ character ∈ tail, kind character = true)
    (outside : ∀ character ∈ front.getLast?, kind character = false) :
    (front ++ tail).reverse.takeWhile kind = tail.reverse := by
  rw [List.reverse_append, List.takeWhile_append_of_pos (by simpa using inside)]
  rw [← List.head?_reverse] at outside
  cases reversed : front.reverse with
  | nil => simp
  | cons last rest =>
      have refused : kind last = false := outside last (by simp [reversed])
      simp [refused]

theorem append_inj_of_tail {kind : Char → Bool}
    {front front' tail tail' : List Char}
    (inside : ∀ character ∈ tail, kind character = true)
    (inside' : ∀ character ∈ tail', kind character = true)
    (outside : ∀ character ∈ front.getLast?, kind character = false)
    (outside' : ∀ character ∈ front'.getLast?, kind character = false)
    (same : front ++ tail = front' ++ tail') : front = front' ∧ tail = tail' := by
  have reversed := congrArg (fun text => text.reverse.takeWhile kind) same
  simp only [takeWhile_reverse_append inside outside,
    takeWhile_reverse_append inside' outside'] at reversed
  have tails : tail = tail' := List.reverse_inj.1 reversed
  rw [tails] at same
  exact ⟨List.append_cancel_right same, tails⟩

/-! ## The characters of the parts -/

def isHashDigit (character : Char) : Bool :=
  character.isDigit || character.isLower

/-- Whether a character may stand in the name of a slot. -/
def isPortable (character : Char) : Bool :=
  isPlain character || character = '_'

theorem isHashDigit_digitChar :
    ∀ digit < 36, isHashDigit (Numeral.digitChar digit) = true := by
  decide

/-- A hash is written in digits and lower-case letters. -/
theorem isHashDigit_of_mem_hash {text : String} {character : Char}
    (mem : character ∈ (hash text).toList) : isHashDigit character = true := by
  simp only [hash, Numeral.text, Numeral.chars, String.toList_ofList] at mem
  obtain ⟨digit, digitMem, rfl⟩ := List.mem_map.1 mem
  exact isHashDigit_digitChar digit (Numeral.lt_of_mem_digits (by decide) digitMem)

theorem hash_inj {text text' : String} :
    hash text = hash text' ↔ hashNumber text = hashNumber text' := by
  constructor
  · intro same
    have spelled := congrArg (fun hash => Numeral.ofChars 36 hash.toList) same
    simp only [hash, Numeral.text, String.toList_ofList,
      Numeral.ofChars_chars (show 2 ≤ 36 by decide) (Nat.le_refl 36)] at spelled
    exact UInt32.toNat_inj.1 spelled
  · intro same
    simp only [hash, same]

theorem hash_ne_nil (text : String) : (hash text).toList ≠ [] := by
  simp only [hash, Numeral.text, String.toList_ofList]
  exact Numeral.chars_ne_nil 36 _

theorem isHashDigit_letter (side : Side) : isHashDigit side.letter = false := by
  cases side <;> decide

theorem isPortable_of_isHashDigit {character : Char}
    (digit : isHashDigit character = true) : isPortable character = true := by
  simp only [isHashDigit, Bool.or_eq_true] at digit
  have isAlphanum : character.isAlphanum =
      (character.isUpper || character.isLower || character.isDigit) := rfl
  rcases digit with isDigit | isLower
  · simp [isPortable, isPlain, isAlphanum, isDigit]
  · simp [isPortable, isPlain, isAlphanum, isLower]

theorem isPortable_of_mem_sanitize {name : String} {character : Char}
    (mem : character ∈ (sanitize name).toList) : isPortable character = true := by
  simp only [sanitize, String.toList_ofList, List.mem_flatMap] at mem
  obtain ⟨original, -, mem⟩ := mem
  split at mem
  · rename_i plain
    have : character = original := by simpa using mem
    simp [isPortable, this, plain]
  · obtain ⟨unit, -, rfl⟩ := List.mem_map.1 mem
    decide

/-- What a front, a hash and a path leave of the name of a slot can be told
apart, if the front does not end like a hash. -/
theorem parts_inj (front front' : List Char) {text text' : String}
    {path path' : List Side}
    (apart : ∀ character ∈ front.getLast?, isHashDigit character = false)
    (apart' : ∀ character ∈ front'.getLast?, isHashDigit character = false)
    (same : front ++ (hash text).toList ++ path.map Side.letter =
      front' ++ (hash text').toList ++ path'.map Side.letter) :
    front = front' ∧ hash text = hash text' ∧ path = path' := by
  have letters (path : List Side) :
      ∀ character ∈ path.map Side.letter, (!isHashDigit character) = true := by
    intro character mem
    obtain ⟨side, -, rfl⟩ := List.mem_map.1 mem
    simp [isHashDigit_letter]
  have digitAtEnd (front : List Char) (text : String) :
      ∀ character ∈ (front ++ (hash text).toList).getLast?,
        (!isHashDigit character) = false := by
    intro character mem
    rw [List.getLast?_append] at mem
    cases last : (hash text).toList.getLast? with
    | none => exact absurd (List.getLast?_eq_none_iff.1 last) (hash_ne_nil text)
    | some digit =>
        rw [last] at mem
        obtain rfl : digit = character := by simpa using mem
        simp [isHashDigit_of_mem_hash (List.mem_of_getLast? last)]
  -- The path ends at the last digit, and before it the hash ends at the front.
  obtain ⟨fronts, paths⟩ := append_inj_of_tail (letters path) (letters path')
    (digitAtEnd front text) (digitAtEnd front' text') same
  obtain ⟨fronts, hashes⟩ := append_inj_of_tail
    (fun _ mem => isHashDigit_of_mem_hash mem)
    (fun _ mem => isHashDigit_of_mem_hash mem) apart apart' fronts
  exact ⟨fronts, String.toList_injective hashes, Side.map_letter_injective paths⟩

/-! ## Reading the name of a slot -/

@[simp] theorem toList_readable (name : String) (condition : Condition) :
    (readable name condition).toList =
      (sanitize name).toList ++ ['-'] ++ (ofCondition condition).toList := by
  simp [readable]

theorem nodeId_anonymous_inj {name name' : String} {condition condition' : Condition}
    {path path' : List Side} :
    nodeId (anonymous name condition) path = nodeId (anonymous name' condition') path' ↔
      ofCondition condition = ofCondition condition' ∧ path = path' := by
  constructor
  · intro same
    have spelled := congrArg String.toList same
    rw [toList_nodeId, toList_nodeId] at spelled
    exact (parts_inj [] [] (by simp) (by simp) spelled).2
  · rintro ⟨hashes, rfl⟩
    simp only [anonymous, hashes]

theorem nodeId_readable_inj {name name' : String} {condition condition' : Condition}
    {path path' : List Side} :
    nodeId (readable name condition) path = nodeId (readable name' condition') path' ↔
      sanitize name = sanitize name' ∧
        ofCondition condition = ofCondition condition' ∧ path = path' := by
  have dash (name : String) : ∀ character ∈ ((sanitize name).toList ++ ['-']).getLast?,
      isHashDigit character = false := by
    simp [show isHashDigit '-' = false by decide]
  constructor
  · intro same
    have spelled := congrArg String.toList same
    rw [toList_nodeId, toList_nodeId, toList_readable, toList_readable] at spelled
    obtain ⟨names, rest⟩ := parts_inj _ _ (dash name) (dash name') spelled
    exact ⟨String.toList_injective (List.append_cancel_right names), rest⟩
  · rintro ⟨names, hashes, rfl⟩
    simp only [readable, names, hashes]

theorem isPortable_property {id : String}
    (portable : ∀ character ∈ id.toList, isPortable character = true)
    (slot : Slot) (path : List Side) :
    (slot.property (nodeId id path)).toList.all isPortable = true := by
  have dash : isPortable '-' = true := by decide
  have digit : isPortable slot.digitChar = true := by cases slot <;> decide
  have letter (side : Side) : isPortable side.letter = true := by cases side <;> decide
  simp [dash, digit, letter, List.all_append, List.all_eq_true.2 portable]

theorem isPortable_of_mem_anonymous {name : String} {condition : Condition} :
    ∀ character ∈ (anonymous name condition).toList, isPortable character = true :=
  fun _ mem => isPortable_of_isHashDigit (isHashDigit_of_mem_hash mem)

theorem isPortable_of_mem_readable {name : String} {condition : Condition} :
    ∀ character ∈ (readable name condition).toList, isPortable character = true := by
  intro character mem
  rw [toList_readable, List.mem_append, List.mem_append] at mem
  rcases mem with (inName | dash) | inHash
  · exact isPortable_of_mem_sanitize inName
  · obtain rfl : character = '-' := by simpa using dash
    decide
  · exact isPortable_of_isHashDigit (isHashDigit_of_mem_hash inHash)

/-- The name of a slot tells the hash of the condition, the path and the slot,
and the sanitized name of the hook where names are shown.  It consists of ASCII
letters, digits, underscores and dashes, whatever the hook is called. -/
theorem slot_name_decodes (name name' : String) (condition condition' : Condition)
    (path path' : List Side) (slot slot' : Slot) :
    (slot.property (nodeId (anonymous name condition) path) =
        slot'.property (nodeId (anonymous name' condition') path') ↔
      ofCondition condition = ofCondition condition' ∧ path = path' ∧ slot = slot') ∧
    (slot.property (nodeId (readable name condition) path) =
        slot'.property (nodeId (readable name' condition') path') ↔
      sanitize name = sanitize name' ∧
        ofCondition condition = ofCondition condition' ∧ path = path' ∧ slot = slot') ∧
    (slot.property (nodeId (anonymous name condition) path)).toList.all isPortable =
      true ∧
    (slot.property (nodeId (readable name condition) path)).toList.all isPortable =
      true := by
  refine ⟨?_, ?_, ?_, ?_⟩
  · rw [Slot.property_inj, nodeId_anonymous_inj]
    constructor
    · rintro ⟨slots, hashes, paths⟩
      exact ⟨hashes, paths, slots⟩
    · rintro ⟨hashes, paths, slots⟩
      exact ⟨slots, hashes, paths⟩
  · rw [Slot.property_inj, nodeId_readable_inj]
    constructor
    · rintro ⟨slots, names, hashes, paths⟩
      exact ⟨names, hashes, paths, slots⟩
    · rintro ⟨names, hashes, paths, slots⟩
      exact ⟨slots, names, hashes, paths⟩
  · exact isPortable_property isPortable_of_mem_anonymous slot path
  · exact isPortable_property isPortable_of_mem_readable slot path

end Identifier

end ConditionalStyles
