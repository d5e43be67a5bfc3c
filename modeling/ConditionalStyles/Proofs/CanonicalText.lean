import ConditionalStyles.Identifier
import ConditionalStyles.Proofs.PrintedJson
import ConditionalStyles.Proofs.ReadBack

/-!
# Canonical texts

The canonical text of a condition tells it apart from every other condition,
whatever the leaf texts are and however deep the conditions nest; so do the code
units of the text, from which a hash is computed.  A condition is two levels of JSON
deep for each of its own, so that its text is a document that can be read as long as
there are at most 63 of them.
-/

namespace ConditionalStyles

/-! ## Code units -/

namespace Text

theorem toNat_valid (character : Char) :
    character.toNat < leadBase ∨ 0xDFFF < character.toNat ∧ character.toNat < 0x110000 :=
  character.valid

theorem unitsOfChar_ne_nil (character : Char) : unitsOfChar character ≠ [] := by
  rw [unitsOfChar]
  split <;> simp

/-- The units of a character are told apart from those of every other one, whatever
follows: no character of the basic plane lies among the surrogates. -/
theorem unitsOfChar_append_cancel {first second : Char} {after after' : List UInt16}
    (same : unitsOfChar first ++ after = unitsOfChar second ++ after') :
    first = second ∧ after = after' := by
  have valid := toNat_valid first
  have valid' := toNat_valid second
  have equal (points : first.toNat = second.toNat) : first = second :=
    Char.toNat_inj.1 points
  simp only [unitsOfChar] at same
  -- Each of the two characters takes one unit or two.
  split at same <;> split at same <;>
    simp only [pairBase, leadBase, trailBase, List.cons_append, List.nil_append,
      List.cons.injEq, ← UInt16.toNat_inj, UInt16.toNat_ofNat'] at *
  · exact ⟨equal (by omega), same.2⟩
  · omega
  · omega
  · exact ⟨equal (by omega), same.2.2⟩

theorem eq_of_flatMap_unitsOfChar_eq {first second : List Char}
    (same : first.flatMap unitsOfChar = second.flatMap unitsOfChar) : first = second := by
  induction first generalizing second with
  | nil =>
      cases second with
      | nil => rfl
      | cons character rest => simp [unitsOfChar_ne_nil] at same
  | cons character rest ih =>
      cases second with
      | nil => simp [unitsOfChar_ne_nil] at same
      | cons character' rest' =>
          rw [List.flatMap_cons, List.flatMap_cons] at same
          obtain ⟨rfl, tail⟩ := unitsOfChar_append_cancel same
          rw [ih tail]

theorem eq_of_units_eq {first second : String} (same : units first = units second) :
    first = second :=
  String.toList_inj.1 (eq_of_flatMap_unitsOfChar_eq same)

end Text

namespace Condition

/-! ## The value of a condition -/

mutual

theorem wellFormed_toJson (condition : Condition) : condition.toJson.WellFormed := by
  cases condition with
  | leaf text => rw [toJson, Json.WellFormed] <;> simp
  | composite operator operands =>
      rw [toJson, Json.WellFormed, Json.WellFormedMembers, Json.WellFormedMembers,
        Json.WellFormed]
      exact ⟨by simp [Entries.keys], wellFormed_toJsonAll operands, trivial⟩

theorem wellFormed_toJsonAll (conditions : List Condition) :
    Json.WellFormedItems (toJsonAll conditions) := by
  match conditions with
  | [] => exact trivial
  | first :: rest => exact ⟨wellFormed_toJson first, wellFormed_toJsonAll rest⟩

end

mutual

theorem nesting_toJson (condition : Condition) :
    condition.toJson.nesting = 2 * condition.depth := by
  cases condition with
  | leaf text => rfl
  | composite operator operands =>
      rw [toJson, Json.nesting, Json.nestingOfMembers, Json.nestingOfMembers, Json.nesting,
        nestingOfItems_toJsonAll operands, depth]
      omega

theorem nestingOfItems_toJsonAll (conditions : List Condition) :
    Json.nestingOfItems (toJsonAll conditions) = 2 * greatestDepth conditions := by
  match conditions with
  | [] => rfl
  | first :: rest =>
      rw [toJsonAll, Json.nestingOfItems, nesting_toJson first,
        nestingOfItems_toJsonAll rest, greatestDepth]
      omega

end

mutual

theorem not_number_of_mem_toJson (condition : Condition) (value : Json.Number) :
    .number value ∉ condition.toJson.tokens := by
  match condition with
  | .leaf text => simp [toJson, Json.tokens]
  | .composite operator [] =>
      simp [toJson, toJsonAll, Json.tokens, Json.tokensOfMembers]
  | .composite operator (first :: rest) =>
      simp [toJson, toJsonAll, Json.tokens, Json.tokensOfMembers,
        not_number_of_mem_toJson first value, not_number_of_mem_toJsonAll rest value]

theorem not_number_of_mem_toJsonAll (conditions : List Condition) (value : Json.Number) :
    .number value ∉ Json.tokensOfItems (toJsonAll conditions) := by
  match conditions with
  | [] => simp [toJsonAll, Json.tokensOfItems]
  | first :: rest =>
      simp [toJsonAll, Json.tokensOfItems, not_number_of_mem_toJson first value,
        not_number_of_mem_toJsonAll rest value]

end

theorem selfDelimiting_toJson (condition : Condition) :
    ∀ token ∈ condition.toJson.tokens, token.SelfDelimiting := by
  intro token mem
  apply Json.Token.selfDelimiting_of_not_number
  rintro value rfl
  exact not_number_of_mem_toJson condition value mem

/-- Conditions are told apart by their values, since they can be decoded. -/
theorem eq_of_toJson_eq {first second : Condition} (same : first.toJson = second.toJson) :
    first = second := by
  have decoded := decode_toJson first
  rw [same, decode_toJson second] at decoded
  exact (Except.ok.inj decoded).symm

/-! ## The text of a condition -/

theorem eq_of_text_eq {first second : Condition} (same : first.text = second.text) :
    first = second :=
  eq_of_toJson_eq (Json.eq_of_compact_eq first.wellFormed_toJson
    first.selfDelimiting_toJson second.wellFormed_toJson second.selfDelimiting_toJson same)

theorem parse?_text {condition : Condition} (shallow : condition.depth ≤ 63) :
    Json.parse? condition.text = some condition.toJson := by
  have nested : condition.toJson.nesting ≤ Json.nestingLimit := by
    rw [nesting_toJson, Json.nestingLimit]
    omega
  exact Json.parse?_compact condition.wellFormed_toJson condition.selfDelimiting_toJson nested

/-- Different conditions have different canonical texts, and these have different code
units for a hash.  A condition that is at most 63 composites deep is read back as it was
from its canonical text, without a warning. -/
theorem canonical_text_is_faithful :
    (∀ first second : Condition, first ≠ second →
      first.text ≠ second.text ∧ Text.units first.text ≠ Text.units second.text) ∧
    ∀ condition : Condition, condition.depth ≤ 63 →
      ∃ value, Json.parse? condition.text = some value ∧
        ofJson value = pure (some condition) := by
  constructor
  · intro first second different
    have texts : first.text ≠ second.text := fun same => different (eq_of_text_eq same)
    exact ⟨texts, fun same => texts (Text.eq_of_units_eq same)⟩
  · intro condition shallow
    exact ⟨condition.toJson, parse?_text shallow, condition.ofJson_toJson⟩

/-- A leaf that spells the canonical text of a composite without operands. -/
def spelledOut : Condition := .leaf "\x7b\"or\":[]\x7d"

/-- A condition with characters that are escaped or lie outside the basic plane. -/
def awkward : Condition :=
  .composite .or [.leaf "\"\\/\n\x01", .composite .and [.leaf "😀", .leaf ""], spelledOut]

/-- The leaf is not taken for the composite, and awkward characters are read back. -/
theorem awkward_text_is_faithful :
    (spelledOut ≠ .composite .or [] ∧
      spelledOut.text ≠ (composite .or []).text ∧
      Text.units spelledOut.text ≠ Text.units (composite .or []).text) ∧
    awkward.depth ≤ 63 ∧
      ∃ value, Json.parse? awkward.text = some value ∧
        ofJson value = pure (some awkward) := by
  have different : spelledOut ≠ .composite .or [] := nofun
  have shallow : awkward.depth ≤ 63 := by decide
  exact ⟨⟨different, canonical_text_is_faithful.1 _ _ different⟩, shallow,
    canonical_text_is_faithful.2 _ shallow⟩

end Condition

end ConditionalStyles
