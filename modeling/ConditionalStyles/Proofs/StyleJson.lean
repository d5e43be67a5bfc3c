import ConditionalStyles.Proofs.NearestDoubles
import ConditionalStyles.Proofs.ReadValues
import ConditionalStyles.Style.Basic

/-!
# Styles as JSON values

A style is written as JSON without loss, if its numbers are finite, and every style
read from JSON has only such numbers.  The JSON value that it is read from and the one
that it is written to have the same shape, so that a style fits in a document wherever
the one that it was read from did.
-/

namespace ConditionalStyles

theorem Double.exists_ofInt_eq_finite {value : Int} (bounds : Json.FitsWord value) :
    ∃ number, Double.ofInt value = .finite number := by
  have low : -9223372036854775808 ≤ value := bounds.1
  have high : value < 18446744073709551616 := bounds.2
  have small : value.natAbs < 2 ^ 64 := by omega
  have unit : unitsPerOne = Nat.pow 2 1074 := by decide +kernel
  exact ⟨_, ofRank_of_lt (rank_lt_of_lt_word small unit (by decide))⟩

namespace StyleValue

/-! ## Finite numbers -/

mutual

/-- Every number in the value is finite. -/
def AllFinite : StyleValue → Prop
  | .number (.finite _) => True
  | .number _ => False
  | .list items => AllFiniteItems items
  | .object entries => AllFiniteMembers entries
  | _ => True

def AllFiniteItems : List StyleValue → Prop
  | [] => True
  | item :: rest => item.AllFinite ∧ AllFiniteItems rest

def AllFiniteMembers : Style → Prop
  | [] => True
  | (_, value) :: rest => value.AllFinite ∧ AllFiniteMembers rest

end

mutual

/-- A value with finite numbers is read back from its JSON value. -/
theorem ofJson_toJson (value : StyleValue) (finite : value.AllFinite) :
    ofJson value.toJson = value := by
  match value with
  | .null => rfl
  | .boolean _ => rfl
  | .number (.finite _) => rfl
  | .text _ => rfl
  | .list items => rw [toJson, ofJson, ofJsonItems_toJsonItems items finite]
  | .object entries => rw [toJson, ofJson, ofJsonMembers_toJsonMembers entries finite]

theorem ofJsonItems_toJsonItems (items : List StyleValue) (finite : AllFiniteItems items) :
    ofJsonItems (toJsonItems items) = items := by
  match items with
  | [] => rfl
  | item :: rest =>
      rw [toJsonItems, ofJsonItems, ofJson_toJson item finite.1,
        ofJsonItems_toJsonItems rest finite.2]

theorem ofJsonMembers_toJsonMembers (entries : Style) (finite : AllFiniteMembers entries) :
    ofJsonMembers (toJsonMembers entries) = entries := by
  match entries with
  | [] => rfl
  | (key, value) :: rest =>
      rw [toJsonMembers, ofJsonMembers, ofJson_toJson value finite.1,
        ofJsonMembers_toJsonMembers rest finite.2]

end

theorem exists_ofNumber_eq_finite (number : Json.Number) :
    ∃ value, ofNumber number = .finite value := by
  cases number with
  | integer value bounds => exact Double.exists_ofInt_eq_finite bounds
  | float value => exact ⟨value, rfl⟩

mutual

theorem allFinite_ofJson (value : Json) : (ofJson value).AllFinite := by
  match value with
  | .null => trivial
  | .boolean _ => trivial
  | .number numeral =>
      obtain ⟨nearest, finite⟩ := exists_ofNumber_eq_finite numeral
      rw [ofJson, finite]
      trivial
  | .string _ => trivial
  | .array items => exact allFiniteItems_ofJsonItems items
  | .object members => exact allFiniteMembers_ofJsonMembers members

theorem allFiniteItems_ofJsonItems (items : List Json) :
    AllFiniteItems (ofJsonItems items) := by
  match items with
  | [] => trivial
  | item :: rest => exact ⟨allFinite_ofJson item, allFiniteItems_ofJsonItems rest⟩

theorem allFiniteMembers_ofJsonMembers (members : Entries Json) :
    AllFiniteMembers (ofJsonMembers members) := by
  match members with
  | [] => trivial
  | (_, value) :: rest => exact ⟨allFinite_ofJson value, allFiniteMembers_ofJsonMembers rest⟩

end

/-! ## The shape of the JSON value -/

theorem keys_ofJsonMembers (members : Entries Json) :
    Entries.keys (ofJsonMembers members) = Entries.keys members := by
  induction members with
  | nil => rfl
  | cons member rest ih => rw [ofJsonMembers, Entries.keys_cons, ih, Entries.keys_cons]

theorem keys_toJsonMembers (entries : Style) :
    Entries.keys (toJsonMembers entries) = Entries.keys entries := by
  induction entries with
  | nil => rfl
  | cons entry rest ih => rw [toJsonMembers, Entries.keys_cons, ih, Entries.keys_cons]

mutual

/-- A value read from JSON nests as deep as the JSON value. -/
theorem nesting_toJson_ofJson (value : Json) : (ofJson value).toJson.nesting = value.nesting := by
  match value with
  | .null => rfl
  | .boolean _ => rfl
  | .number numeral =>
      obtain ⟨nearest, finite⟩ := exists_ofNumber_eq_finite numeral
      rw [ofJson, finite]
      rfl
  | .string _ => rfl
  | .array items =>
      rw [ofJson, toJson, Json.nesting, nestingOfItems_toJsonItems_ofJsonItems, Json.nesting]
  | .object members =>
      rw [ofJson, toJson, Json.nesting, nestingOfMembers_toJsonMembers_ofJsonMembers,
        Json.nesting]

theorem nestingOfItems_toJsonItems_ofJsonItems (items : List Json) :
    Json.nestingOfItems (toJsonItems (ofJsonItems items)) = Json.nestingOfItems items := by
  match items with
  | [] => rfl
  | item :: rest =>
      rw [ofJsonItems, toJsonItems, Json.nestingOfItems, nesting_toJson_ofJson,
        nestingOfItems_toJsonItems_ofJsonItems, Json.nestingOfItems]

theorem nestingOfMembers_toJsonMembers_ofJsonMembers (members : Entries Json) :
    Json.nestingOfMembers (toJsonMembers (ofJsonMembers members)) =
      Json.nestingOfMembers members := by
  match members with
  | [] => rfl
  | (key, value) :: rest =>
      rw [ofJsonMembers, toJsonMembers, Json.nestingOfMembers, nesting_toJson_ofJson,
        nestingOfMembers_toJsonMembers_ofJsonMembers, Json.nestingOfMembers]

end

mutual

theorem wellFormed_ofJson (value : Json) (wellFormed : value.WellFormed) :
    (ofJson value).WellFormed := by
  match value with
  | .null => trivial
  | .boolean _ => trivial
  | .number _ => trivial
  | .string _ => trivial
  | .array items => exact wellFormedItems_ofJsonItems items wellFormed
  | .object members =>
      rw [ofJson, WellFormed, keys_ofJsonMembers]
      exact ⟨wellFormed.1, wellFormedMembers_ofJsonMembers members wellFormed.2⟩

theorem wellFormedItems_ofJsonItems (items : List Json)
    (wellFormed : Json.WellFormedItems items) : WellFormedItems (ofJsonItems items) := by
  match items with
  | [] => trivial
  | item :: rest =>
      exact ⟨wellFormed_ofJson item wellFormed.1, wellFormedItems_ofJsonItems rest wellFormed.2⟩

theorem wellFormedMembers_ofJsonMembers (members : Entries Json)
    (wellFormed : Json.WellFormedMembers members) :
    WellFormedMembers (ofJsonMembers members) := by
  match members with
  | [] => trivial
  | (_, value) :: rest =>
      exact ⟨wellFormed_ofJson value wellFormed.1,
        wellFormedMembers_ofJsonMembers rest wellFormed.2⟩

end

mutual

theorem wellFormed_toJson (value : StyleValue) (wellFormed : value.WellFormed) :
    value.toJson.WellFormed := by
  match value with
  | .null => trivial
  | .boolean _ => trivial
  | .number (.finite _) => trivial
  | .number (.infinite _) => trivial
  | .number .nan => trivial
  | .text _ => trivial
  | .list items => exact wellFormedItems_toJsonItems items wellFormed
  | .object entries =>
      rw [toJson, Json.WellFormed, keys_toJsonMembers]
      exact ⟨wellFormed.1, wellFormedMembers_toJsonMembers entries wellFormed.2⟩

theorem wellFormedItems_toJsonItems (items : List StyleValue)
    (wellFormed : WellFormedItems items) : Json.WellFormedItems (toJsonItems items) := by
  match items with
  | [] => trivial
  | item :: rest =>
      exact ⟨wellFormed_toJson item wellFormed.1, wellFormedItems_toJsonItems rest wellFormed.2⟩

theorem wellFormedMembers_toJsonMembers (entries : Style)
    (wellFormed : WellFormedMembers entries) :
    Json.WellFormedMembers (toJsonMembers entries) := by
  match entries with
  | [] => trivial
  | (_, value) :: rest =>
      exact ⟨wellFormed_toJson value wellFormed.1,
        wellFormedMembers_toJsonMembers rest wellFormed.2⟩

end

end StyleValue

theorem Style.ofJson?_toJson {style : Style} (finite : StyleValue.AllFiniteMembers style) :
    ofJson? style.toJson = some style := by
  rw [ofJson?, toJson, StyleValue.ofJson, StyleValue.ofJsonMembers_toJsonMembers style finite]

end ConditionalStyles
