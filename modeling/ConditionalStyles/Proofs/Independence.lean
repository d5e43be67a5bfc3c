import ConditionalStyles.Proofs.Levels
import ConditionalStyles.Proofs.SingleProperty

/-!
# Properties do not influence each other

What flattening gives a property does not depend on the other properties, at any
level, nor on how they are rendered.  Two styles that are alike once all other
properties are left out give it the same value, wherever the other ones stand.
-/

namespace ConditionalStyles

/-- Whether two renderers give the values of a property the same text.  References are
not asked about, since they are never rendered. -/
def Renderer.AgreeOn (property : String) (first second : Renderer) : Prop :=
  ∀ value, (∀ content, value = .text content → isReference content = false) →
    first property value = second property value

theorem Renderer.AgreeOn.keepReferences {property : String} {first second : Renderer}
    (agree : AgreeOn property first second) (value : StyleValue) :
    first.keepReferences property value = second.keepReferences property value := by
  unfold Renderer.keepReferences
  split
  · rename_i content
    split
    · rfl
    · rename_i notReference
      apply agree
      rintro _ ⟨rfl⟩
      simpa using notReference
  · rename_i notText
    exact agree value fun content isText => absurd isText (notText content)

namespace Style

def single (hooks : Compiled) (property : String) (style : Style) : Style :=
  style.filter fun entry => hooks.contains entry.1 || entry.1 == property

/-- A style without all properties but one at every level. -/
def singleAtLevels (hooks : Compiled) (property : String) (style : Style) : Style :=
  changeLevels hooks (single hooks property) style

section

variable {hooks : Compiled} {key property : String}

theorem single_cons (key : String) (value : StyleValue) (rest : Style) :
    single hooks property ((key, value) :: rest) =
      if hooks.contains key || key == property then
        (key, value) :: single hooks property rest
      else single hooks property rest := by
  cases kept : hooks.contains key || key == property <;> simp [single, kept]

theorem mem_keys_single (style : Style) :
    property ∈ Entries.keys (single hooks property style) ↔
      property ∈ Entries.keys style := by
  simp [single, Entries.keys]

theorem get?_single (style : Style) :
    Entries.get? (single hooks property style) property =
      Entries.get? style property := by
  induction style with
  | nil => rfl
  | cons entry rest ih =>
      obtain ⟨key, value⟩ := entry
      rw [single_cons]
      by_cases wanted : key = property
      · subst wanted
        simp
      · split <;> simp [wanted, ih]

end

end Style

namespace Flattener

open Style

variable (flattener : Flattener)

def withRenderer (renderer : Renderer) : Flattener :=
  { flattener with renderer }

theorem isWithheld_single {property : String} (renderer : Renderer) (style : Style) :
    (flattener.withRenderer renderer).isWithheld
        (Entries.keys (single flattener.hooks property style)) property =
      flattener.isWithheld (Entries.keys style) property := by
  have listed : (Entries.keys (single flattener.hooks property style)).contains property =
      (Entries.keys style).contains property := by
    rw [Bool.eq_iff_iff, List.contains_iff_mem, List.contains_iff_mem, mem_keys_single]
  rw [isWithheld, isWithheld, listed]
  rfl

section

variable {flattener} {property : String} {renderer : Renderer}
  (plain : flattener.hooks.contains property = false)
  (agree : flattener.renderer.AgreeOn property renderer)
include plain agree

theorem get?_ownCells_single (style : Style) :
    ((flattener.withRenderer renderer).ownCells
        (single flattener.hooks property
          (changeBranches flattener.hooks (single flattener.hooks property) style))).get?
        property =
      (flattener.ownCells style).get? property := by
  have sameCell : (flattener.withRenderer renderer).cell property =
      flattener.cell property := by
    funext value
    unfold cell
    rw [agree.keepReferences]
    rfl
  rw [get?_ownCells, get?_ownCells, get?_single, get?_changeBranches _ _ plain, sameCell]
  rfl

end

mutual

/-- The other properties of a branch and how they are rendered make no difference to the
cell of a property. -/
theorem cellIn_single {property : String} {renderer : Renderer}
    (plain : flattener.hooks.contains property = false)
    (agree : flattener.renderer.AgreeOn property renderer) (outside : Option String)
    (value : StyleValue) :
    (flattener.withRenderer renderer).cellIn property outside
        (changeIn flattener.hooks (single flattener.hooks property) value) =
      flattener.cellIn property outside value := by
  cases value with
  | object style =>
      rw [changeIn, cellIn, cellIn, get?_ownCells_single plain agree,
        cellThrough_single plain agree outside style]
  | _ => rfl

theorem cellThrough_single {property : String} {renderer : Renderer}
    (plain : flattener.hooks.contains property = false)
    (agree : flattener.renderer.AgreeOn property renderer) (outside : Option String)
    (style : Style) (cell : Option Cell) :
    (flattener.withRenderer renderer).cellThrough property outside
        (single flattener.hooks property
          (changeBranches flattener.hooks (single flattener.hooks property) style)) cell =
      flattener.cellThrough property outside style cell := by
  match style with
  | [] => rfl
  | (key, value) :: rest =>
      rw [changeBranches, single_cons]
      cases configured : flattener.hooks.hooks.get? key with
      | none =>
          have keyPlain := Compiled.contains_eq_false_iff.2 configured
          rw [cellThrough_of_plain keyPlain, ← cellThrough_single plain agree outside rest]
          split
          · have keyPlain' : (flattener.withRenderer renderer).hooks.contains key = false :=
              keyPlain
            exact cellThrough_of_plain keyPlain' property outside _ _ cell
          · rfl
      | some hook =>
          have isHook := Compiled.contains_of_get? configured
          have configured' :
              (flattener.withRenderer renderer).hooks.hooks.get? key = some hook := configured
          rw [if_pos (by simp [isHook]), if_pos isHook, cellThrough_of_hook configured,
            cellThrough_of_hook configured', isWithheld_single, keys_changeBranches,
            cellIn_single plain agree _ value]
          exact cellThrough_single plain agree outside rest _

end

/-- The value of a property is that of its cell when the others are left out, under any
renderer that agrees on it. -/
theorem get?_flatten_single {property : String}
    (plain : flattener.hooks.contains property = false) {renderer : Renderer}
    (agree : flattener.renderer.AgreeOn property renderer) {style : Style}
    (wellFormed : style.WellFormed) :
    (flattener.flatten style).get? property =
      ((flattener.withRenderer renderer).cellIn property none
        (.object (singleAtLevels flattener.hooks property style))).map Cell.value := by
  rw [get?_flatten _ wellFormed, singleAtLevels, ← changeIn_object,
    cellIn_single flattener plain agree]

/-- Properties do not influence each other.  Two styles that are the same once all
properties but one are left out at every level give this one the same value, or none,
under renderers that agree on it, in either mode and wherever other properties stand. -/
theorem get?_flatten_of_single_eq {property : String}
    (plain : flattener.hooks.contains property = false) {renderer : Renderer}
    (agree : flattener.renderer.AgreeOn property renderer) {first second : Style}
    (wellFormed : first.WellFormed) (wellFormed' : second.WellFormed)
    (same : singleAtLevels flattener.hooks property first =
      singleAtLevels flattener.hooks property second) :
    (flattener.flatten first).get? property =
      ((flattener.withRenderer renderer).flatten second).get? property := by
  have agreesWithItself : renderer.AgreeOn property renderer := fun _ _ => rfl
  have secondValue : ((flattener.withRenderer renderer).flatten second).get? property =
      ((flattener.withRenderer renderer).cellIn property none
        (.object (singleAtLevels flattener.hooks property second))).map Cell.value :=
    get?_flatten_single (flattener.withRenderer renderer) plain agreesWithItself wellFormed'
  rw [get?_flatten_single flattener plain agree wellFormed, same, secondValue]

def hoverAndQuery : Flattener where
  hooks := Compiled.ofConfiguration Identifier.anonymous
    (Configuration.ofList [("hover", .leaf ":hover"), ("narrow", .leaf "@media (width < 20em)")])
  settings := { sort := true }
  renderer := Renderer.plain

def fading : Style :=
  [("width", .number (.ofInt 3)), ("opacity", .number (.ofInt 1)),
    ("hover", .object [("width", .text "0"), ("opacity", .text "0.5"),
      ("narrow", .object [("opacity", .text "0.25"), ("width", .null)])])]

def fadingElsewhere : Style :=
  [("opacity", .number (.ofInt 1)),
    ("hover", .object [("opacity", .text "0.5"), ("color", .text "red"),
      ("narrow", .object [("height", .number (.ofInt 7)), ("opacity", .text "0.25")])]),
    ("margin", .list [])]

/-- The opacity has no unit, and is the same in both styles and under both renderers. -/
theorem get?_flatten_fading :
    hoverAndQuery.hooks.contains "opacity" = false ∧
      hoverAndQuery.renderer.AgreeOn "opacity" Renderer.pixels ∧
      fading.WellFormed ∧ fadingElsewhere.WellFormed ∧
      singleAtLevels hoverAndQuery.hooks "opacity" fading =
        singleAtLevels hoverAndQuery.hooks "opacity" fadingElsewhere ∧
      (hoverAndQuery.flatten fading).get? "opacity" =
        ((hoverAndQuery.withRenderer Renderer.pixels).flatten fadingElsewhere).get?
          "opacity" := by
  have plain : hoverAndQuery.hooks.contains "opacity" = false := by decide
  have agree : hoverAndQuery.renderer.AgreeOn "opacity" Renderer.pixels := by
    intro value _
    have unitless : isUnitless "opacity" = true := by decide
    cases value <;> simp [hoverAndQuery, Renderer.plain, Renderer.pixels, unitless]
  have wellFormed : fading.WellFormed := by
    simp [fading, Style.WellFormed, StyleValue.WellFormed, StyleValue.WellFormedMembers]
  have wellFormed' : fadingElsewhere.WellFormed := by
    simp [fadingElsewhere, Style.WellFormed, StyleValue.WellFormed,
      StyleValue.WellFormedMembers, StyleValue.WellFormedItems]
  have same : singleAtLevels hoverAndQuery.hooks "opacity" fading =
      singleAtLevels hoverAndQuery.hooks "opacity" fadingElsewhere := by
    rfl
  exact ⟨plain, agree, wellFormed, wellFormed', same,
    get?_flatten_of_single_eq hoverAndQuery plain agree wellFormed wellFormed' same⟩

end Flattener

end ConditionalStyles
