import ConditionalStyles.Style.Rendering

/-!
# The two spellings of a property

A property is spelled in camel case or with dashes: every capital stands for a dash and its
small letter.  Joining the words of the spelling with dashes gives the camel-case name back,
so both spellings are found in the table of properties without a unit, or neither is, and
a renderer that asks the table treats them alike.
-/

namespace ConditionalStyles

/-! ## Capitals -/

theorem toUpper_toLower {character : Char} (capital : character.isUpper = true) :
    character.toLower.toUpper = character ∧ character.toLower ≠ '-' := by
  have all : ∀ code < 91, 65 ≤ code → (Char.ofNat code).toLower.toUpper = Char.ofNat code ∧
      (Char.ofNat code).toLower ≠ '-' := by decide
  have bounds : 'A'.val ≤ character.val ∧ character.val ≤ 'Z'.val := of_decide_eq_true capital
  have range : 65 ≤ character.toNat ∧ character.toNat ≤ 90 := by
    simpa [UInt32.le_iff_toNat_le] using bounds
  have letter := all character.toNat (by omega) range.1
  rwa [Char.ofNat_toNat] at letter

/-! ## The spelling with dashes -/

def dashedCharacter (character : Char) : List Char :=
  if character.isUpper then ['-', character.toLower] else [character]

/-- The spelling with dashes of a property in camel case. -/
def dashed (property : String) : String :=
  String.ofList (property.toList.flatMap dashedCharacter)

/-- A name in camel case: it has no dash, and its first word starts with a small letter. -/
structure IsCamelCase (property : String) : Prop where
  noDash : '-' ∉ property.toList
  noCapital : ∀ first, property.toList.head? = some first → first.isUpper = false

instance (property : String) : Decidable (IsCamelCase property) :=
  decidable_of_iff ('-' ∉ property.toList ∧
      property.toList.head?.all (fun first => !first.isUpper) = true) <| by
    constructor
    · rintro ⟨noDash, noCapital⟩
      exact ⟨noDash, fun first head => by simpa [head] using noCapital⟩
    · rintro ⟨noDash, noCapital⟩
      refine ⟨noDash, ?_⟩
      cases head : property.toList.head? with
      | none => rfl
      | some first => simp [noCapital first head]

theorem joinWords_cons {character : Char} (other : character ≠ '-') (capital : Bool)
    (rest : List Char) :
    joinWords capital (character :: rest) =
      (if capital then character.toUpper else character) :: joinWords false rest := by
  rw [joinWords]
  exact other

/-- Joining the words of the spelling with dashes gives the name back. -/
theorem joinWords_dashed {characters : List Char} (noDash : '-' ∉ characters) :
    joinWords false (characters.flatMap dashedCharacter) = characters := by
  induction characters with
  | nil => rfl
  | cons first rest ih =>
      have other : first ≠ '-' := fun same => noDash (same ▸ List.mem_cons_self)
      have joined := ih fun mem => noDash (List.mem_cons_of_mem first mem)
      rw [List.flatMap_cons, dashedCharacter]
      split
      · rename_i capital
        obtain ⟨upper, small⟩ := toUpper_toLower capital
        rw [List.cons_append, joinWords, List.cons_append, joinWords_cons small, if_pos rfl,
          upper, List.nil_append, joined]
      · rw [List.cons_append, joinWords_cons other, if_neg Bool.false_ne_true,
          List.nil_append, joined]

theorem flatMap_dashedCharacter_eq {characters : List Char}
    (noDash : '-' ∉ characters.flatMap dashedCharacter) :
    characters.flatMap dashedCharacter = characters := by
  induction characters with
  | nil => rfl
  | cons first rest ih =>
      rw [List.flatMap_cons, List.mem_append, not_or] at noDash
      obtain ⟨noDash, noDashes⟩ := noDash
      rw [List.flatMap_cons, ih noDashes]
      rw [dashedCharacter] at noDash ⊢
      split at noDash
      · exact absurd List.mem_cons_self noDash
      · rw [if_neg ‹_›, List.singleton_append]

theorem isPrefixOf_dashes {characters : List Char} (head : characters.head? ≠ some '-') :
    ['-', '-'].isPrefixOf characters = false := by
  cases characters with
  | nil => rfl
  | cons first rest =>
      have other : '-' ≠ first := fun same => head (by rw [same]; rfl)
      simp [List.isPrefixOf, other]

namespace IsCamelCase

variable {property : String} (camel : IsCamelCase property)
include camel

theorem head?_dashed : (dashed property).toList.head? ≠ some '-' := by
  obtain ⟨noDash, noCapital⟩ := camel
  rw [dashed, String.toList_ofList]
  cases characters : property.toList with
  | nil => nofun
  | cons first rest =>
      have small := noCapital first (by rw [characters]; rfl)
      rw [List.flatMap_cons, dashedCharacter, if_neg (by rw [small]; exact Bool.false_ne_true)]
      intro dash
      rw [characters, ← Option.some.inj dash] at noDash
      exact noDash List.mem_cons_self

theorem camelCase_dashed : camelCase (dashed property) = property := by
  have kept : (dashed property).toList.dropWhile (fun c => c = '-') =
      (dashed property).toList := by
    have head := camel.head?_dashed
    cases characters : (dashed property).toList with
    | nil => rfl
    | cons first rest =>
        rw [characters] at head
        exact List.dropWhile_cons_of_neg fun dash => head (by simpa using dash)
  rw [camelCase, kept, dashed, String.toList_ofList, joinWords_dashed camel.noDash,
    String.ofList_toList]

theorem isUnitless_eq : isUnitless property = unitlessProperties.contains property := by
  have head : property.toList.head? ≠ some '-' :=
    fun dash => camel.noDash (List.mem_of_head? dash)
  simp only [isUnitless, isPrefixOf_dashes head, List.contains_iff_mem, camel.noDash]
  rfl

/-- The table is asked for the camel-case name in either case. -/
theorem isUnitless_dashed : isUnitless (dashed property) = isUnitless property := by
  rw [camel.isUnitless_eq]
  simp only [isUnitless, isPrefixOf_dashes camel.head?_dashed, camel.camelCase_dashed]
  rw [if_neg Bool.false_ne_true]
  split
  · rfl
  · rename_i noDash
    rw [List.contains_iff_mem, dashed, String.toList_ofList] at noDash
    rw [dashed, flatMap_dashedCharacter_eq noDash, String.ofList_toList]

end IsCamelCase

/-- Both spellings of a property are one property: the spelling with dashes is joined to the
name in camel case, it is unitless exactly if that is, and every value has the same text for
both. -/
theorem spellings_are_alike {property : String} (camel : IsCamelCase property) :
    camelCase (dashed property) = property ∧
      isUnitless (dashed property) = isUnitless property ∧
      ∀ value, Renderer.pixels (dashed property) value = Renderer.pixels property value := by
  refine ⟨camel.camelCase_dashed, camel.isUnitless_dashed, fun value => ?_⟩
  cases value with
  | number number => rw [Renderer.pixels, Renderer.pixels, camel.isUnitless_dashed]
  | _ => rfl

/-- Capitals in a row are words of one letter, and letters beyond ASCII start none. -/
theorem spellings_of_column_alike :
    IsCamelCase "gridÄColumnXY2" ∧ dashed "gridÄColumnXY2" = "gridÄ-column-x-y2" ∧
      camelCase "gridÄ-column-x-y2" = "gridÄColumnXY2" ∧
      isUnitless "gridÄ-column-x-y2" = isUnitless "gridÄColumnXY2" ∧
      ∀ value, Renderer.pixels "gridÄ-column-x-y2" value =
        Renderer.pixels "gridÄColumnXY2" value := by
  have camel : IsCamelCase "gridÄColumnXY2" := by decide
  have spelled : dashed "gridÄColumnXY2" = "gridÄ-column-x-y2" := by decide
  have alike := spellings_are_alike camel
  rw [spelled] at alike
  exact ⟨camel, spelled, alike⟩

end ConditionalStyles
