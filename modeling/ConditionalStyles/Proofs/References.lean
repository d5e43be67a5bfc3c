import ConditionalStyles.Proofs.Names

/-!
# References in CSS text

A text of CSS may hold references `var(--name)` and `var(--name,fallback)`.  The
fallback ends at the parenthesis that closes the reference, so that references
can be nested, and a text in which every parenthesis is closed can stand inside
one without changing where it ends.
-/

namespace ConditionalStyles

namespace Css

/-! ## Parentheses -/

/-- The number of groups that are open after a text, if `depth` were open before
it and none is closed that is not open. -/
def openAfter (depth : Nat) : List Char → Option Nat
  | [] => some depth
  | character :: rest =>
      if character = '(' then openAfter (depth + 1) rest
      else if character = ')' then
        match depth with
        | 0 => none
        | depth + 1 => openAfter depth rest
      else openAfter depth rest

/-- Every parenthesis of a text has its counterpart in it. -/
def Balanced (text : List Char) : Prop :=
  openAfter 0 text = some 0

instance (text : List Char) : Decidable (Balanced text) :=
  inferInstanceAs (Decidable (openAfter 0 text = some 0))

/-- The text before the parenthesis that closes an open group in which `depth`
other groups are open, and the text after it. -/
def splitAtClosing (depth : Nat) : List Char → Option (List Char × List Char)
  | [] => none
  | character :: rest =>
      if character = '(' then
        (splitAtClosing (depth + 1) rest).map fun split => (character :: split.1, split.2)
      else if character = ')' then
        match depth with
        | 0 => some ([], rest)
        | depth + 1 =>
            (splitAtClosing depth rest).map fun split => (character :: split.1, split.2)
      else (splitAtClosing depth rest).map fun split => (character :: split.1, split.2)

theorem openAfter_append (depth : Nat) (first second : List Char) :
    openAfter depth (first ++ second) =
      (openAfter depth first).bind fun depth => openAfter depth second := by
  fun_induction openAfter depth first with
  | case1 depth => rfl
  | case2 depth rest ih => simpa [openAfter] using ih
  | case3 rest opens => simp [openAfter]
  | case4 rest opens depth ih => simpa [openAfter] using ih
  | case5 depth character rest opens closes ih => simpa [openAfter, opens, closes] using ih

theorem openAfter_add {depth result : Nat} {text : List Char} (outer : Nat)
    (reached : openAfter depth text = some result) :
    openAfter (depth + outer) text = some (result + outer) := by
  fun_induction openAfter depth text with
  | case1 depth =>
      obtain rfl : depth = result := by simpa using reached
      rfl
  | case2 depth rest ih =>
      have inner := ih reached
      rw [Nat.add_right_comm] at inner
      simpa [openAfter] using inner
  | case3 rest opens => simp at reached
  | case4 rest depth opens ih =>
      rw [Nat.succ_add]
      simpa [openAfter] using ih reached
  | case5 depth character rest opens closes ih =>
      simpa [openAfter, opens, closes] using ih reached

/-- A split passes over a text and goes on with the groups that it leaves open. -/
theorem splitAtClosing_append {depth result : Nat} {inside : List Char}
    (rest : List Char) (reached : openAfter depth inside = some result) :
    splitAtClosing depth (inside ++ rest) =
      (splitAtClosing result rest).map fun split => (inside ++ split.1, split.2) := by
  fun_induction openAfter depth inside with
  | case1 depth =>
      obtain rfl : depth = result := by simpa using reached
      simp
  | case2 depth tail ih => simp [splitAtClosing, ih reached, Function.comp_def]
  | case3 tail opens => simp at reached
  | case4 tail opens depth ih => simp [splitAtClosing, ih reached, Function.comp_def]
  | case5 depth character tail opens closes ih =>
      simp [splitAtClosing, opens, closes, ih reached, Function.comp_def]

namespace Balanced

theorem nil : Balanced [] :=
  rfl

theorem append {first second : List Char} (balanced : Balanced first)
    (balanced' : Balanced second) : Balanced (first ++ second) := by
  rw [Balanced, openAfter_append, balanced]
  exact balanced'

theorem cons {character : Char} {rest : List Char} (notOpening : character ≠ '(')
    (notClosing : character ≠ ')') (balanced : Balanced rest) :
    Balanced (character :: rest) := by
  rw [Balanced, openAfter, if_neg notOpening, if_neg notClosing]
  exact balanced

theorem group {inside after : List Char} (balanced : Balanced inside)
    (balanced' : Balanced after) : Balanced ('(' :: (inside ++ ')' :: after)) := by
  have inner : openAfter 1 inside = some 1 := openAfter_add 1 balanced
  have closed : openAfter 1 (')' :: after) = openAfter 0 after := by simp [openAfter]
  rw [Balanced, openAfter, if_pos rfl, openAfter_append, inner, Option.bind_some, closed]
  exact balanced'

theorem space {rest : List Char} (balanced : Balanced rest) : Balanced (' ' :: rest) :=
  .cons (by decide) (by decide) balanced

theorem reference {inside after : List Char} (balanced : Balanced inside)
    (balanced' : Balanced after) :
    Balanced ('v' :: 'a' :: 'r' :: '(' :: (inside ++ ')' :: after)) := by
  apply cons (by decide) (by decide)
  apply cons (by decide) (by decide)
  apply cons (by decide) (by decide)
  exact balanced.group balanced'

theorem of_forall {text : List Char}
    (plain : ∀ character ∈ text, character ≠ '(' ∧ character ≠ ')') : Balanced text := by
  induction text with
  | nil => exact nil
  | cons character rest ih =>
      obtain ⟨notOpening, notClosing⟩ := plain character List.mem_cons_self
      exact cons notOpening notClosing
        (ih fun other mem => plain other (List.mem_cons_of_mem _ mem))

end Balanced

/-- A balanced text is closed by the parenthesis after it. -/
theorem splitAtClosing_balanced {inside : List Char} (balanced : Balanced inside)
    (rest : List Char) : splitAtClosing 0 (inside ++ ')' :: rest) = some (inside, rest) := by
  rw [splitAtClosing_append _ balanced]
  simp [splitAtClosing]

theorem exists_split_of_map {character : Char} {inside rest : List Char}
    {found : Option (List Char × List Char)}
    (split : found.map (fun split => (character :: split.1, split.2)) =
      some (inside, rest)) :
    ∃ start, inside = character :: start ∧ found = some (start, rest) := by
  obtain ⟨⟨start, after⟩, found_eq, parts⟩ := Option.map_eq_some_iff.1 split
  obtain ⟨rfl, rfl⟩ : character :: start = inside ∧ after = rest := by
    simpa using parts
  exact ⟨start, rfl, found_eq⟩

theorem eq_append_of_splitAtClosing {depth : Nat} {text inside rest : List Char}
    (split : splitAtClosing depth text = some (inside, rest)) :
    text = inside ++ ')' :: rest := by
  fun_induction splitAtClosing depth text generalizing inside with
  | case1 depth => simp at split
  | case2 depth tail ih =>
      obtain ⟨start, rfl, found⟩ := exists_split_of_map split
      rw [ih found, List.cons_append]
  | case3 tail opens =>
      obtain ⟨rfl, rfl⟩ : [] = inside ∧ tail = rest := by simpa using split
      rfl
  | case4 tail depth opens ih =>
      obtain ⟨start, rfl, found⟩ := exists_split_of_map split
      rw [ih found, List.cons_append]
  | case5 depth character tail opens closes ih =>
      obtain ⟨start, rfl, found⟩ := exists_split_of_map split
      rw [ih found, List.cons_append]

/-! ## References -/

/-- Whether a character may stand in the name of a custom property: letters,
digits, underscores, dashes, and everything beyond ASCII. -/
def isNameChar (character : Char) : Bool :=
  Identifier.isPortable character || 128 ≤ character.toNat

def IsName (name : String) : Prop :=
  ∀ character ∈ name.toList, isNameChar character = true

-- The list is searched, and not the finite type of all characters.
instance (name : String) : Decidable (IsName name) :=
  decidable_of_iff (name.toList.all isNameChar = true) List.all_eq_true

theorem IsName.of_isPortable {name : String}
    (portable : ∀ character ∈ name.toList, Identifier.isPortable character = true) :
    IsName name := by
  intro character mem
  rw [isNameChar, portable character mem, Bool.true_or]

theorem IsName.not_mem {name : String} (isName : IsName name) {character : Char}
    (foreign : isNameChar character = false) : character ∉ name.toList := by
  intro mem
  rw [isName character mem] at foreign
  cases foreign

theorem IsName.balanced {name : String} (isName : IsName name) : Balanced name.toList := by
  refine Balanced.of_forall fun character mem => ⟨?_, ?_⟩
  · rintro rfl
    exact isName.not_mem (by decide) mem
  · rintro rfl
    exact isName.not_mem (by decide) mem

theorem IsName.property {id : String} (isName : IsName id) (slot : Slot) :
    IsName (slot.property id) := by
  have dash : isNameChar '-' = true := by decide
  have digit : isNameChar slot.digitChar = true := by cases slot <;> decide
  intro character mem
  simp only [Slot.toList_property, List.mem_cons, List.mem_append, List.not_mem_nil,
    or_false] at mem
  rcases mem with rfl | rfl | inId | rfl | rfl
  · exact dash
  · exact dash
  · exact isName character inId
  · exact dash
  · exact digit

theorem IsName.nodeId {id : String} (isName : IsName id) (path : List Stylesheet.Side) :
    IsName (Stylesheet.nodeId id path) := by
  intro character mem
  rw [Stylesheet.toList_nodeId, List.mem_append] at mem
  rcases mem with inId | inPath
  · exact isName character inId
  · obtain ⟨side, -, rfl⟩ := List.mem_map.1 inPath
    cases side <;> decide

structure Reference where
  name : String
  /-- The text that takes the place of the property's value if it has none. -/
  fallback : Option (List Char)
  after : List Char

/-- The reference that a text starts with, after `var(`. -/
def Reference.ofArguments? (text : List Char) : Option Reference :=
  let name := String.ofList (text.takeWhile isNameChar)
  match text.dropWhile isNameChar with
  | ')' :: after => some { name, fallback := none, after }
  | ',' :: rest =>
      (splitAtClosing 0 rest).map fun split =>
        { name, fallback := some split.1, after := split.2 }
  | _ => none

def Reference.ofText? (text : List Char) : Option Reference :=
  match text with
  | 'v' :: 'a' :: 'r' :: '(' :: rest => Reference.ofArguments? rest
  | _ => none

theorem Balanced.reference_fallback {name : String} (isName : IsName name)
    {fallback after : List Char} (balanced : Balanced fallback)
    (balanced' : Balanced after) :
    Balanced
      ('v' :: 'a' :: 'r' :: '(' :: (name.toList ++ ',' :: (fallback ++ ')' :: after))) := by
  have arguments : Balanced (name.toList ++ ',' :: fallback) :=
    isName.balanced.append (.cons (by decide) (by decide) balanced)
  simpa using arguments.reference balanced'

theorem takeWhile_name {name : String} (isName : IsName name) {next : Char}
    (ends : isNameChar next = false) (rest : List Char) :
    (name.toList ++ next :: rest).takeWhile isNameChar = name.toList := by
  rw [List.takeWhile_append_of_pos isName]
  simp [ends]

theorem dropWhile_name {name : String} (isName : IsName name) {next : Char}
    (ends : isNameChar next = false) (rest : List Char) :
    (name.toList ++ next :: rest).dropWhile isNameChar = next :: rest := by
  rw [List.dropWhile_append_of_pos isName]
  simp [ends]

/-- A reference with a balanced fallback is read as such. -/
theorem Reference.ofText?_fallback {name : String} (isName : IsName name)
    {fallback : List Char} (balanced : Balanced fallback) (after : List Char) :
    Reference.ofText?
        ('v' :: 'a' :: 'r' :: '(' :: (name.toList ++ ',' :: (fallback ++ ')' :: after))) =
      some { name, fallback := some fallback, after } := by
  have ends : isNameChar ',' = false := by decide
  simp only [Reference.ofText?, Reference.ofArguments?, takeWhile_name isName ends,
    dropWhile_name isName ends, splitAtClosing_balanced balanced, Option.map_some,
    String.ofList_toList]

/-- A reference without a fallback is read as such. -/
theorem Reference.ofText?_bare {name : String} (isName : IsName name)
    (after : List Char) :
    Reference.ofText? ('v' :: 'a' :: 'r' :: '(' :: (name.toList ++ ')' :: after)) =
      some { name, fallback := none, after } := by
  have ends : isNameChar ')' = false := by decide
  simp only [Reference.ofText?, Reference.ofArguments?, takeWhile_name isName ends,
    dropWhile_name isName ends, String.ofList_toList]

theorem Reference.length_lt {text : List Char} {reference : Reference}
    (starts : Reference.ofText? text = some reference) :
    reference.after.length < text.length ∧
      ∀ fallback ∈ reference.fallback, fallback.length < text.length := by
  unfold Reference.ofText? at starts
  split at starts
  · rename_i arguments
    have shorter : (arguments.dropWhile isNameChar).length ≤ arguments.length :=
      (List.dropWhile_sublist _).length_le
    unfold Reference.ofArguments? at starts
    split at starts
    · rename_i after rest_eq
      rw [rest_eq] at shorter
      obtain rfl := Option.some.inj starts
      simp only [List.length_cons] at shorter ⊢
      exact ⟨by omega, by simp⟩
    · rename_i rest rest_eq
      rw [rest_eq] at shorter
      obtain ⟨⟨fallback, after⟩, found, rfl⟩ := Option.map_eq_some_iff.1 starts
      have parts := congrArg List.length (eq_append_of_splitAtClosing found)
      simp only [List.length_cons, List.length_append] at shorter parts ⊢
      refine ⟨by omega, ?_⟩
      rintro _ ⟨rfl⟩
      omega
    · simp at starts
  · simp at starts

/-! ## Openings of references -/

/-- Whether what stands behind every opening of a reference in a text is of a kind. -/
def AtOpenings (kind : List Char → Prop) (text : List Char) : Prop :=
  ∀ after, 'v' :: 'a' :: 'r' :: '(' :: after <:+ text → kind after

theorem not_infix_of_not_mem {text : List Char} (absent : '(' ∉ text) :
    ¬"var(".toList <:+: text := by
  intro mentioned
  have opening : '(' ∈ "var(".toList := by simp
  exact absent (mentioned.subset opening)

/-- An opening that starts in front of a character which does not occur in it lies in
front of this character as a whole. -/
theorem eq_append_of_opening {separator : Char} (apart : separator ∉ ['v', 'a', 'r', '('])
    {start second after : List Char}
    (opening : ['v', 'a', 'r', '('] ++ after = start ++ separator :: second) :
    ∃ rest, start = ['v', 'a', 'r', '('] ++ rest ∧ after = rest ++ separator :: second := by
  rcases List.append_eq_append_iff.1 opening with ⟨rest, inside, after_eq⟩ |
    ⟨rest, inside, second_eq⟩
  · exact ⟨rest, inside, after_eq⟩
  · cases rest with
    | nil => exact ⟨[], by simpa using inside.symm, second_eq.symm⟩
    | cons character rest =>
        obtain ⟨rfl, -⟩ := List.cons.inj second_eq
        exact absurd (inside ▸ List.mem_append_right _ List.mem_cons_self) apart

namespace AtOpenings

variable {kind : List Char → Prop}

theorem mono {kind' : List Char → Prop} {text : List Char}
    (imp : ∀ after, kind after → kind' after) (atOpenings : AtOpenings kind text) :
    AtOpenings kind' text :=
  fun after suffix => imp after (atOpenings after suffix)

theorem nil : AtOpenings kind [] := by
  intro after suffix
  cases List.suffix_nil.1 suffix

theorem of_unreferenced {text : List Char} (absent : ¬"var(".toList <:+: text) :
    AtOpenings kind text := by
  rintro after ⟨before, rfl⟩
  exact absurd ⟨before, after, by simp⟩ absent

theorem name {name : String} (isName : IsName name) : AtOpenings kind name.toList :=
  of_unreferenced (not_infix_of_not_mem (isName.not_mem (by decide)))

theorem cons {character : Char} {text : List Char} (other : character ≠ 'v')
    (atOpenings : AtOpenings kind text) : AtOpenings kind (character :: text) := by
  intro after suffix
  rcases List.suffix_cons_iff.1 suffix with same | within
  · exact absurd (List.cons.inj same).1.symm other
  · exact atOpenings after within

theorem opening {arguments : List Char} (first : kind arguments)
    (atOpenings : AtOpenings kind arguments) :
    AtOpenings kind ('v' :: 'a' :: 'r' :: '(' :: arguments) := by
  intro after suffix
  rcases List.suffix_cons_iff.1 suffix with same | within
  · obtain rfl : after = arguments := by simpa using same
    exact first
  · have tail := cons (by decide : 'a' ≠ 'v') (cons (by decide : 'r' ≠ 'v')
      (cons (by decide : '(' ≠ 'v') atOpenings))
    exact tail after within

/-- The openings of two texts with such a character between them are those of the texts. -/
theorem append_cons (grows : ∀ start rest, kind start → kind (start ++ rest))
    {separator : Char} (apart : separator ∉ ['v', 'a', 'r', '(']) {first second : List Char}
    (inFirst : AtOpenings kind first) (inSecond : AtOpenings kind second) :
    AtOpenings kind (first ++ separator :: second) := by
  rintro after ⟨before, split⟩
  rcases List.append_eq_append_iff.1 split with ⟨start, rfl, opens⟩ | ⟨between, -, second_eq⟩
  · obtain ⟨rest, rfl, rfl⟩ := eq_append_of_opening apart opens
    exact grows rest _ (inFirst rest ⟨before, rfl⟩)
  · cases between with
    | nil =>
        obtain ⟨rfl, -⟩ := List.cons.inj second_eq
        exact absurd List.mem_cons_self apart
    | cons character between =>
        obtain ⟨-, rfl⟩ := List.cons.inj second_eq
        exact inSecond after ⟨between, rfl⟩

/-- A reference has its own opening and those in its arguments. -/
theorem reference (grows : ∀ start rest, kind start → kind (start ++ rest)) {name : String}
    (isName : IsName name) {next : Char} (apart : next ∉ ['v', 'a', 'r', '('])
    {rest : List Char} (first : kind (name.toList ++ next :: rest))
    (inRest : AtOpenings kind rest) :
    AtOpenings kind ('v' :: 'a' :: 'r' :: '(' :: (name.toList ++ next :: rest)) :=
  opening first (append_cons grows apart (.name isName) inRest)

end AtOpenings

/-! ## Reading a text -/

/-- The reference that a text starts with, if it has a fallback and `shows` knows
its property: whether it shows the fallback, the fallback, and the text after it. -/
def choice? (shows : String → Option Bool) (text : List Char) :
    Option (Bool × List Char × List Char) :=
  match Reference.ofText? text with
  | some { name, fallback := some fallback, after } =>
      (shows name).map fun shown => (shown, fallback, after)
  | _ => none

theorem choice?_length {shows : String → Option Bool} {text fallback after : List Char}
    {shown : Bool} (chosen : choice? shows text = some (shown, fallback, after)) :
    fallback.length < text.length ∧ after.length < text.length := by
  unfold choice? at chosen
  split at chosen
  · rename_i name fallback' after' starts
    have shorter := Reference.length_lt starts
    obtain ⟨known, -, parts⟩ := Option.map_eq_some_iff.1 chosen
    obtain ⟨-, rfl, rfl⟩ : known = shown ∧ fallback' = fallback ∧ after' = after := by
      simpa using parts
    exact ⟨shorter.2 _ rfl, shorter.1⟩
  · simp at chosen

/-- A text as it reads when every reference to a property that `shows` knows is
replaced by its fallback or by nothing.  Other references stay as they are. -/
def read (shows : String → Option Bool) (text : List Char) : List Char :=
  match text with
  | [] => []
  | character :: rest =>
      match _chosen : choice? shows (character :: rest) with
      | some (true, fallback, after) => read shows fallback ++ read shows after
      | some (false, _, after) => read shows after
      | none => character :: read shows rest
termination_by text.length
decreasing_by
  · exact (choice?_length _chosen).1
  · exact (choice?_length _chosen).2
  · exact (choice?_length _chosen).2
  · exact Nat.lt_succ_self _

@[simp] theorem read_nil (shows : String → Option Bool) : read shows [] = [] := by
  rw [read]

@[simp] theorem read_space (shows : String → Option Bool) (rest : List Char) :
    read shows (' ' :: rest) = ' ' :: read shows rest := by
  rw [read]
  have none : choice? shows (' ' :: rest) = none := rfl
  split <;> simp_all

/-- A reference to a known property is read as its fallback or as nothing. -/
theorem read_fallback {shows : String → Option Bool} {name : String} {shown : Bool}
    (known : shows name = some shown) (isName : IsName name) {fallback : List Char}
    (balanced : Balanced fallback) (after : List Char) :
    read shows
        ('v' :: 'a' :: 'r' :: '(' :: (name.toList ++ ',' :: (fallback ++ ')' :: after))) =
      (if shown then read shows fallback else []) ++ read shows after := by
  have chosen : choice? shows
        ('v' :: 'a' :: 'r' :: '(' :: (name.toList ++ ',' :: (fallback ++ ')' :: after))) =
      some (shown, fallback, after) := by
    simp only [choice?, Reference.ofText?_fallback isName balanced, known, Option.map_some]
  rw [read]
  split <;> simp_all

/-! ## Texts that differ in blanks around them -/

def Padded (text inner : List Char) : Prop :=
  ∃ before after : Nat,
    text = List.replicate before ' ' ++ inner ++ List.replicate after ' '

namespace Padded

@[refl] theorem refl (text : List Char) : Padded text text :=
  ⟨0, 0, by simp⟩

theorem trans {first second third : List Char} (outer : Padded first second)
    (inner : Padded second third) : Padded first third := by
  obtain ⟨before, after, rfl⟩ := outer
  obtain ⟨before', after', rfl⟩ := inner
  refine ⟨before + before', after' + after, ?_⟩
  simp only [← List.replicate_append_replicate, List.append_assoc]

theorem cons_space (text : List Char) : Padded (' ' :: text) text :=
  ⟨1, 0, by simp⟩

theorem append_space (text : List Char) : Padded (text ++ [' ']) text :=
  ⟨0, 1, by simp⟩

end Padded

end Css

end ConditionalStyles
