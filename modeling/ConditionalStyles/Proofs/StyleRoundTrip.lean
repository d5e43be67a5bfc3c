import ConditionalStyles.Proofs.IndentedJson
import ConditionalStyles.Proofs.NearestDoubles
import ConditionalStyles.Proofs.StyleJson

/-!
# Styles survive JSON

A style with finite numbers is read back from its JSON value and, if the number literals
in it are rounded correctly, from its compact text.  The other way round, a JSON object
comes back from the style that it describes with every whole number rounded to the nearest
double and nothing else changed, so that the next round trip changes nothing at all.
-/

namespace ConditionalStyles

/-! ## Rounding the whole numbers of a value -/

namespace Json

mutual

/-- The second value is the first one with every whole number rounded to the nearest
double. -/
inductive RoundsTo : Json → Json → Prop
  | null : RoundsTo .null .null
  | boolean (value : Bool) : RoundsTo (.boolean value) (.boolean value)
  | string (text : String) : RoundsTo (.string text) (.string text)
  | integer {value : Int} {bounds : FitsWord value} {number : Double.Finite}
      (nearest : number.IsNearestToInt value) :
      RoundsTo (.number (.integer value bounds)) (.number (.float number))
  | float (number : Double.Finite) : RoundsTo (.number (.float number)) (.number (.float number))
  | array {items items' : List Json} (each : ItemsRoundTo items items') :
      RoundsTo (.array items) (.array items')
  | object {members members' : List (String × Json)} (each : MembersRoundTo members members') :
      RoundsTo (.object members) (.object members')

inductive ItemsRoundTo : List Json → List Json → Prop
  | nil : ItemsRoundTo [] []
  | cons {item item' : Json} {rest rest' : List Json} (first : RoundsTo item item')
      (later : ItemsRoundTo rest rest') : ItemsRoundTo (item :: rest) (item' :: rest')

inductive MembersRoundTo : List (String × Json) → List (String × Json) → Prop
  | nil : MembersRoundTo [] []
  | cons {key : String} {value value' : Json} {rest rest' : List (String × Json)}
      (first : RoundsTo value value') (later : MembersRoundTo rest rest') :
      MembersRoundTo ((key, value) :: rest) ((key, value') :: rest')

end

mutual

theorem RoundsTo.unique {value first second : Json} (rounds : value.RoundsTo first)
    (rounds' : value.RoundsTo second) : first = second := by
  match rounds, rounds' with
  | .null, .null => rfl
  | .boolean _, .boolean _ => rfl
  | .string _, .string _ => rfl
  | .integer nearest, .integer nearest' => rw [nearest.unique nearest']
  | .float _, .float _ => rfl
  | .array each, .array each' => rw [each.unique each']
  | .object each, .object each' => rw [each.unique each']

theorem ItemsRoundTo.unique {items first second : List Json} (each : ItemsRoundTo items first)
    (each' : ItemsRoundTo items second) : first = second := by
  match each, each' with
  | .nil, .nil => rfl
  | .cons head later, .cons head' later' => rw [head.unique head', later.unique later']

theorem MembersRoundTo.unique {members first second : List (String × Json)}
    (each : MembersRoundTo members first) (each' : MembersRoundTo members second) :
    first = second := by
  match each, each' with
  | .nil, .nil => rfl
  | .cons head later, .cons head' later' => rw [head.unique head', later.unique later']

end

end Json

namespace StyleValue

/-- The number that a JSON number denotes is written as the number that it rounds to. -/
theorem roundsTo_number (numeral : Json.Number) :
    Json.RoundsTo (.number numeral) (ofJson (.number numeral)).toJson := by
  obtain ⟨number, finite⟩ := exists_ofNumber_eq_finite numeral
  rw [ofJson, finite, toJson]
  cases numeral with
  | integer value bounds =>
      exact .integer (Double.Finite.isNearestToInt_of_ofInt finite)
  | float value =>
      cases finite
      exact .float _

mutual

/-- A JSON value comes back from the style value that it describes with its whole numbers
rounded. -/
theorem roundsTo_toJson_ofJson (value : Json) : value.RoundsTo (ofJson value).toJson := by
  match value with
  | .null => exact .null
  | .boolean value => exact .boolean value
  | .number numeral => exact roundsTo_number numeral
  | .string content => exact .string content
  | .array items => exact .array (itemsRoundTo_toJsonItems_ofJsonItems items)
  | .object members => exact .object (membersRoundTo_toJsonMembers_ofJsonMembers members)

theorem itemsRoundTo_toJsonItems_ofJsonItems (items : List Json) :
    Json.ItemsRoundTo items (toJsonItems (ofJsonItems items)) := by
  match items with
  | [] => exact .nil
  | item :: rest =>
      exact .cons (roundsTo_toJson_ofJson item) (itemsRoundTo_toJsonItems_ofJsonItems rest)

theorem membersRoundTo_toJsonMembers_ofJsonMembers (members : Entries Json) :
    Json.MembersRoundTo members (toJsonMembers (ofJsonMembers members)) := by
  match members with
  | [] => exact .nil
  | (key, value) :: rest =>
      exact .cons (roundsTo_toJson_ofJson value)
        (membersRoundTo_toJsonMembers_ofJsonMembers rest)

end

end StyleValue

namespace Style

/-! ## Round trips -/

def AllFinite (style : Style) : Prop :=
  (StyleValue.object style).AllFinite

/-- A style with finite numbers is read back from its compact text, if it nests within the
limit and the literals in the text are rounded correctly. -/
theorem ofJson?_parse?_compact {style : Style} (finite : style.AllFinite)
    (wellFormed : style.WellFormed) (nested : style.toJson.nesting ≤ Json.nestingLimit)
    (rounded : ∀ literal ∈ Json.literalsIn style.toJson.compact.toList, literal.IsRounded) :
    (Json.parse? style.toJson.compact).bind ofJson? = some style := by
  have distinct : style.toJson.WellFormed :=
    StyleValue.wellFormed_toJson (.object style) wellFormed
  rw [Json.parse?_compact_of_isRounded distinct nested rounded, Option.bind_some,
    ofJson?_toJson finite]

/-- A style with finite numbers survives JSON, as a value and, if the number literals in it
are read as the nearest doubles, as a compact text.  A JSON object survives being a style
except that its whole numbers are rounded, and then it stays as it is. -/
theorem survives_json :
    (∀ style : Style, style.AllFinite →
      ofJson? style.toJson = some style ∧
        (style.WellFormed → style.toJson.nesting ≤ Json.nestingLimit →
          (∀ literal ∈ Json.literalsIn style.toJson.compact.toList, literal.IsRounded) →
          (Json.parse? style.toJson.compact).bind ofJson? = some style)) ∧
      ∀ members : Entries Json, ∃ style, ofJson? (.object members) = some style ∧
        (∀ value, Json.RoundsTo (.object members) value ↔ value = style.toJson) ∧
        ofJson? style.toJson = some style := by
  refine ⟨fun style finite => ⟨ofJson?_toJson finite, ofJson?_parse?_compact finite⟩,
    fun members => ⟨StyleValue.ofJsonMembers members, rfl, fun value => ?_, ?_⟩⟩
  · have rounds := StyleValue.roundsTo_toJson_ofJson (.object members)
    constructor
    · intro rounds'
      exact rounds'.unique rounds
    · rintro rfl
      exact rounds
  · exact ofJson?_toJson (StyleValue.allFiniteMembers_ofJsonMembers members)

/-- The members of an object with a negative zero, the double nearest to `0.1`, whole numbers
between two doubles, an escaped key and an empty one. -/
def assortedMembers : Entries Json :=
  [("a\n", .array [
      .number (.float (Double.Finite.zero true)),
      .number (.float { negative := false, rank := 4591870180066957722, rank_lt := by decide })]),
    ("b", .object [
      ("", .number (.integer 9007199254740993 (by decide))),
      ("c", .number (.integer 18446744073709551615 (by decide))),
      ("n", .null),
      ("t", .boolean true)])]

def assorted : Style :=
  StyleValue.ofJsonMembers assortedMembers

/-- The style survives JSON as a value and as a text. -/
theorem assorted_survives_json :
    assorted.AllFinite ∧ assorted.WellFormed ∧
      assorted.toJson.nesting ≤ Json.nestingLimit ∧
      (∀ literal ∈ Json.literalsIn assorted.toJson.compact.toList, literal.IsRounded) ∧
      assorted.toJson.compact =
        "\x7b\"a\\n\":[-0.0,0.1],\"b\":\x7b\"\":9007199254740992.0," ++
          "\"c\":1.8446744073709552e+19,\"n\":null,\"t\":true\x7d\x7d" ∧
      ofJson? assorted.toJson = some assorted ∧
      (Json.parse? assorted.toJson.compact).bind ofJson? = some assorted ∧
      ∃ style, ofJson? (.object assortedMembers) = some style ∧
        (∀ value, Json.RoundsTo (.object assortedMembers) value ↔ value = style.toJson) ∧
        ofJson? style.toJson = some style := by
  have finite : assorted.AllFinite := StyleValue.allFinite_ofJson (.object assortedMembers)
  have wellFormed : assorted.WellFormed :=
    StyleValue.wellFormed_ofJson (.object assortedMembers)
      ⟨by decide, ⟨trivial, trivial, trivial⟩,
        ⟨by decide, trivial, trivial, trivial, trivial, trivial⟩, trivial⟩
  have nested : assorted.toJson.nesting ≤ Json.nestingLimit := by decide +kernel
  have text : assorted.toJson.compact =
      "\x7b\"a\\n\":[-0.0,0.1],\"b\":\x7b\"\":9007199254740992.0," ++
        "\"c\":1.8446744073709552e+19,\"n\":null,\"t\":true\x7d\x7d" := by decide +kernel
  have rounded : ∀ literal ∈ Json.literalsIn assorted.toJson.compact.toList,
      literal.IsRounded := by
    rw [text]
    decide +kernel
  exact ⟨finite, wellFormed, nested, rounded, text, (survives_json.1 assorted finite).1,
    (survives_json.1 assorted finite).2 wellFormed nested rounded,
    survives_json.2 assortedMembers⟩

def drifting : Style :=
  [("a", .number (.finite
    { negative := false, rank := 4958396687196483698, rank_lt := by decide }))]

/-- Without the condition on the literals a style need not survive.  The double nearest to
`3e23` is printed as `3e+23`, but that is read as the double below. -/
theorem drifting_does_not_survive :
    drifting.AllFinite ∧ drifting.WellFormed ∧
      drifting.toJson.nesting ≤ Json.nestingLimit ∧
      drifting.toJson.compact = "\x7b\"a\":3e+23\x7d" ∧
      (Json.parse? drifting.toJson.compact).bind ofJson? ≠ some drifting := by
  have text : drifting.toJson.compact = "\x7b\"a\":3e+23\x7d" := by decide +kernel
  refine ⟨⟨trivial, trivial⟩, ⟨by decide, trivial, trivial⟩, by decide, text, fun same => ?_⟩
  have below : ((Json.parse? drifting.toJson.compact).bind ofJson?).map (·.toJson.compact) =
      some "\x7b\"a\":2.9999999999999997e+23\x7d" := by decide +kernel
  rw [same, Option.map_some, text] at below
  revert below
  decide

end Style

end ConditionalStyles
