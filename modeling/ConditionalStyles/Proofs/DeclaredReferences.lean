import ConditionalStyles.Proofs.HookTruth
import ConditionalStyles.Proofs.LastDeclaration
import ConditionalStyles.Proofs.SingleProperty
import ConditionalStyles.Proofs.StylesheetShape

/-!
# References in flattened texts

Flattening brings in references to the slots of hooks whose branches it takes, and to
nothing else.  These hooks are active, so that the stylesheet of the same configuration
gives each of the slots a value at rest.  A reference to a slot without a value would
show its fallback whether the hook is true or not.
-/

namespace ConditionalStyles

namespace Css

/-! ## References of a text -/

/-- Whether a text starts with a declared property, a comma and a space. -/
def OpensDeclared (declared : String → Prop) (after : List Char) : Prop :=
  ∃ name rest, declared name ∧ after = name.toList ++ ',' :: ' ' :: rest

/-- Whether every reference in a text goes to a property that is declared and has a
fallback after a comma and a space. -/
def RefersTo (declared : String → Prop) (text : List Char) : Prop :=
  AtOpenings (OpensDeclared declared) text

namespace RefersTo

variable {declared : String → Prop}

theorem append_cons {separator : Char} (apart : separator ∉ ['v', 'a', 'r', '('])
    {first second : List Char} (refers : RefersTo declared first)
    (refers' : RefersTo declared second) :
    RefersTo declared (first ++ separator :: second) := by
  refine AtOpenings.append_cons ?_ apart refers refers'
  rintro _ rest ⟨name, inside, isDeclared, rfl⟩
  exact ⟨name, inside ++ rest, isDeclared, by simp⟩

theorem reference {property : String} (isDeclared : declared property)
    (isName : IsName property) {fallback after : List Char}
    (refers : RefersTo declared fallback) (refers' : RefersTo declared after) :
    RefersTo declared
      ('v' :: 'a' :: 'r' :: '(' ::
        (property.toList ++ ',' :: ((' ' :: fallback) ++ ')' :: after))) := by
  apply AtOpenings.opening
  · exact ⟨property, fallback ++ ')' :: after, isDeclared, rfl⟩
  · exact append_cons (by decide) (AtOpenings.name isName)
      (append_cons (by decide) (AtOpenings.cons (by decide) refers) refers')

end RefersTo

end Css

namespace Flattener

open Css

variable {flattener : Flattener}

/-! ## What holds of every text -/

/-- Whether the texts of flattening are all of a kind if those of values are: the
keyword is of this kind, and so are conditional texts of an active hook whose
alternatives are. -/
structure Composes (flattener : Flattener) (kind : String → Prop) : Prop where
  keyword : kind flattener.settings.fallback.keyword
  conditional : ∀ key hook, flattener.hooks.hooks.get? key = some hook →
    hook.active = true → ∀ whenTrue whenFalse, kind whenTrue → kind whenFalse →
      kind (conditional hook.id whenTrue whenFalse)

theorem mem_texts_of_ownCells {style : Style} {property text : String}
    (rendered : ((flattener.ownCells style).get? property).bind Cell.text? = some text) :
    text ∈ flattener.texts style := by
  rw [get?_ownCells] at rendered
  cases plain : flattener.hooks.contains property with
  | true => simp [plain] at rendered
  | false =>
      cases present : Entries.get? style property with
      | none => simp [plain, present] at rendered
      | some value =>
          cases kept : flattener.renderer.keepReferences property value with
          | none => simp [plain, present, cell, kept, Cell.text?] at rendered
          | some own =>
              obtain rfl : own = text := by
                simpa [plain, present, cell, kept, Cell.text?] using rendered
              exact mem_texts plain present kept

theorem mem_textAt {outside : Option String} {cell : Option Cell} {text : String}
    (mem : text ∈ textAt outside cell) : text ∈ cell.bind Cell.text? ∨ text ∈ outside := by
  unfold textAt at mem
  cases own : cell.bind Cell.text? with
  | some other =>
      rw [own] at mem
      exact Or.inl mem
  | none =>
      rw [own] at mem
      exact Or.inr mem

namespace Composes

variable {kind : String → Prop}

/-- Taking the text of a branch of an active hook keeps the kind of a property's text. -/
theorem withBranchText (composes : flattener.Composes kind) {key : String}
    {hook : CompiledHook} (configured : flattener.hooks.hooks.get? key = some hook)
    (active : hook.active = true) {outside : Option String}
    (outsideKind : ∀ text ∈ outside, kind text) {cell : Option Cell}
    (cellKind : ∀ text ∈ cell.bind Cell.text?, kind text) {taken : Option String}
    (takenKind : ∀ text ∈ taken, kind text) :
    ∀ text ∈ (flattener.withBranchText hook.id outside cell taken).bind Cell.text?,
      kind text := by
  cases taken with
  | none => exact cellKind
  | some whenTrue =>
      rintro _ ⟨rfl⟩
      apply composes.conditional key hook configured active _ _ (takenKind whenTrue rfl)
      cases applies : textAt outside cell with
      | none => exact composes.keyword
      | some text => exact (mem_textAt applies).elim (cellKind text) (outsideKind text)

mutual

theorem cellIn (composes : flattener.Composes kind) (property : String)
    (outside : Option String) (value : StyleValue)
    (valueKind : ∀ text ∈ flattener.textsIn value, kind text)
    (outsideKind : ∀ text ∈ outside, kind text) :
    ∀ text ∈ (flattener.cellIn property outside value).bind Cell.text?, kind text := by
  cases value with
  | object style =>
      rw [textsIn] at valueKind
      rw [Flattener.cellIn]
      exact cellThrough composes property outside style valueKind outsideKind
        fun text own => valueKind text (mem_texts_of_ownCells own)
  | _ => simp [Flattener.cellIn]

theorem cellThrough (composes : flattener.Composes kind) (property : String)
    (outside : Option String) (style : Style)
    (styleKind : ∀ text ∈ flattener.texts style, kind text)
    (outsideKind : ∀ text ∈ outside, kind text) {cell : Option Cell}
    (cellKind : ∀ text ∈ cell.bind Cell.text?, kind text) :
    ∀ text ∈ (flattener.cellThrough property outside style cell).bind Cell.text?,
      kind text := by
  match style with
  | [] => exact cellKind
  | (key, value) :: rest =>
      rw [texts] at styleKind
      have restKind : ∀ text ∈ flattener.texts rest, kind text :=
        fun text mem => styleKind text (List.mem_append_right _ mem)
      cases configured : flattener.hooks.hooks.get? key with
      | none =>
          rw [cellThrough_of_plain (Compiled.contains_eq_false_iff.2 configured)]
          exact cellThrough composes property outside rest restKind outsideKind cellKind
      | some hook =>
          rw [cellThrough_of_hook configured]
          apply cellThrough composes property outside rest restKind outsideKind
          split
          · rename_i taken
            have active : hook.active = true := (Bool.and_eq_true_iff.1 taken).1
            rw [if_pos (Compiled.contains_of_get? configured)] at styleKind
            refine composes.withBranchText configured active outsideKind cellKind ?_
            refine cellIn composes property _ value
              (fun text mem => styleKind text (List.mem_append_left _ mem)) ?_
            exact fun text mem => (mem_textAt mem).elim (cellKind text) (outsideKind text)
          · exact cellKind

end

end Composes

/-! ## Values without text -/

theorem cellThrough_eq_inert {property : String} {outside : Option String} {style : Style}
    {cell : Option Cell} {value : StyleValue}
    (inert : flattener.cellThrough property outside style cell = some (.inert value)) :
    cell = some (.inert value) := by
  induction style generalizing cell with
  | nil => exact inert
  | cons entry rest ih =>
      obtain ⟨key, first⟩ := entry
      cases configured : flattener.hooks.hooks.get? key with
      | none =>
          rw [cellThrough_of_plain (Compiled.contains_eq_false_iff.2 configured)] at inert
          exact ih inert
      | some hook =>
          rw [cellThrough_of_hook configured] at inert
          have before := ih inert
          split at before
          · unfold Flattener.withBranchText at before
            split at before
            · exact before
            · cases before
          · exact before

def cells (flattener : Flattener) (style : Style) : Entries Cell :=
  flattener.branchCells (fun _ => none) (.object style)

/-- A flattened value is the text of the property's cell, unless the style has it and
the renderer gives it no text. -/
theorem rendered_or_inert {style : Style} (wellFormed : style.WellFormed)
    {property : String} {value : StyleValue}
    (flattened : (flattener.flatten style).get? property = some value) :
    (∃ text, value = .text text ∧
        text ∈ (flattener.cellIn property none (.object style)).bind Cell.text?) ∨
      ((flattener.cells style).get? property = some (.inert value) ∧
        Entries.get? style property = some value ∧
        flattener.renderer.keepReferences property value = none) := by
  have cell_eq : (flattener.cells style).get? property =
      flattener.cellIn property none (.object style) :=
    get?_branchCells _ _ _ wellFormed property
  rw [get?_flatten _ wellFormed] at flattened
  obtain ⟨cell, found, rfl⟩ := Option.map_eq_some_iff.1 flattened
  cases cell with
  | rendered text => exact Or.inl ⟨text, rfl, by rw [found]; rfl⟩
  | inert value =>
      have unchanged := found
      rw [Flattener.cellIn] at unchanged
      have own := cellThrough_eq_inert unchanged
      rw [get?_ownCells] at own
      split at own
      · cases own
      · obtain ⟨first, present, ownCell⟩ := Option.map_eq_some_iff.1 own
        unfold cell at ownCell
        split at ownCell
        · cases ownCell
        · rename_i unrendered
          obtain rfl := Cell.inert.inj ownCell
          exact Or.inr ⟨cell_eq.trans found, present, unrendered⟩

end Flattener

/-! ## Slots of active hooks -/

namespace Compiled

def IsActiveSlot (compiled : Compiled) (property : String) : Prop :=
  ∃ name id, ∃ slot : Slot, compiled.isActive name = true ∧ compiled.id? name = some id ∧
    property = slot.property id

theorem isActiveSlot_of_get? {compiled : Compiled} {name : String} {hook : CompiledHook}
    (configured : compiled.hooks.get? name = some hook) (active : hook.active = true)
    (slot : Slot) : compiled.IsActiveSlot (slot.property hook.id) := by
  refine ⟨name, hook.id, slot, ?_, ?_, rfl⟩
  · rw [isActive, configured]
    exact active
  · rw [id?, configured, Option.map_some]

/-- Whether the universal rule of the stylesheet's text declares a property. -/
def Declares (compiled : Compiled) (property : String) : Prop :=
  ∃ before value after,
    compiled.stylesheet.initializers = before ++ { property, value } :: after ∧
      compiled.cssText =
        Rule.block "*" (Declaration.textOfAll before ++
          (property ++ ":" ++ value.text ++ ";") ++ Declaration.textOfAll after) ++
        String.join (compiled.stylesheet.rules.map Rule.text)

theorem declares_of_mem {compiled : Compiled} {property : String}
    (mem : property ∈ compiled.stylesheet.initializers.map Declaration.property) :
    compiled.Declares property := by
  obtain ⟨⟨_, value⟩, declared, rfl⟩ := List.mem_map.1 mem
  obtain ⟨before, after, initializers⟩ := List.append_of_mem declared
  refine ⟨before, value, after, initializers, ?_⟩
  rw [cssText, Stylesheet.text, initializers]
  simp only [Declaration.textOfAll, List.map_append, List.map_cons, String.join_append,
    String.join_cons, Declaration.text, String.append_assoc]

/-- The stylesheet of a valid condition declares the slots of the hook. -/
theorem slot_mem_ofCondition {condition : Condition} (valid : condition.isValid = true)
    (id : String) (slot : Slot) :
    slot.property id ∈
      (Stylesheet.ofCondition id condition.normalize).initializers.map
        Declaration.property := by
  have paired := Condition.paired_normalize valid
  rw [map_property_initializers paired, List.mem_flatMap]
  refine ⟨{ path := [], condition := condition.normalize }, ?_, ?_⟩
  · exact (Condition.mem_nodes paired).2 (by rw [Condition.node?])
  · exact Node.mem_slots.2 ⟨slot, by rw [Stylesheet.nodeId_nil]⟩

/-- The stylesheet of a configuration declares the slots of its active hooks. -/
theorem declares_of_isActiveSlot {scheme : Identifier.Scheme} {configuration : Configuration}
    {property : String}
    (isSlot : (ofConfiguration scheme configuration).IsActiveSlot property) :
    (ofConfiguration scheme configuration).Declares property := by
  obtain ⟨name, id, slot, active, identified, rfl⟩ := isSlot
  rw [isActive_ofConfiguration] at active
  obtain ⟨condition, configured, valid⟩ := (Option.any_eq_true _ _).1 active
  have mem : (name, condition) ∈ configuration.hooks :=
    Entries.mem_of_get?_eq_some configured
  rw [id?_of_mem mem] at identified
  obtain rfl := Option.some.inj identified
  apply declares_of_mem
  have part := slot_mem_ofCondition valid (scheme name condition.normalize) slot
  rw [initializers_ofConfiguration, List.map_flatMap, List.mem_flatMap]
  exact ⟨(name, condition), List.mem_filter.2 ⟨mem, valid⟩, part⟩

end Compiled

namespace Flattener

open Css

/-- Texts that refer to slots of active hooks are of one kind. -/
theorem composes_refersTo {flattener : Flattener} (named : flattener.hooks.HasNames) :
    flattener.Composes fun text =>
      RefersTo flattener.hooks.IsActiveSlot text.toList where
  keyword := by
    apply AtOpenings.name
    cases flattener.settings.fallback <;> decide
  conditional key hook configured active whenTrue whenFalse refers refers' := by
    have isSlot := Compiled.isActiveSlot_of_get? configured active
    have isName : IsName hook.id := named _ (Entries.mem_of_get?_eq_some configured)
    rw [toList_conditional]
    exact .reference (isSlot _) (isName.property _) refers
      (AtOpenings.cons (by decide)
        (RefersTo.reference (isSlot _) (isName.property _) refers' AtOpenings.nil))

/-- Flattening refers to nothing but what the stylesheet declares.  If no value of the
style is rendered to a text with a reference, then every reference in a flattened text
goes to a slot of an active hook and has a fallback, and the universal rule of the same
configuration declares this slot.  A text that the renderer gives no text for is not
rendered: where no branch gives the property a text it is left as the style has it. -/
theorem flatten_refers_to_declared {scheme : Identifier.Scheme}
    {configuration : Configuration} (flattener : Flattener)
    (compiled : flattener.hooks = Compiled.ofConfiguration scheme configuration)
    (named : flattener.hooks.HasNames) {style : Style} (wellFormed : style.WellFormed)
    (unreferenced : ∀ text ∈ flattener.texts style, ¬"var(".toList <:+: text.toList)
    {property text : String}
    (flattened : (flattener.flatten style).get? property = some (.text text)) :
    ((flattener.cells style).get? property = some (.inert (.text text)) ∧
        Entries.get? style property = some (.text text) ∧
        flattener.renderer.keepReferences property (.text text) = none) ∨
      ∀ before after, text.toList = before ++ "var(".toList ++ after →
        ∃ name id rest, ∃ slot : Slot, flattener.hooks.isActive name = true ∧
          flattener.hooks.id? name = some id ∧
          after = (slot.property id).toList ++ ", ".toList ++ rest ∧
          flattener.hooks.Declares (slot.property id) := by
  rcases rendered_or_inert wellFormed flattened with ⟨_, ⟨rfl⟩, rendered⟩ | unrendered
  · refine Or.inr fun before after split => ?_
    have refers := (composes_refersTo named).cellIn property none (.object style)
      (fun text mem => AtOpenings.of_unreferenced (unreferenced text mem)) (by simp) text rendered
    obtain ⟨_, rest, isSlot, rfl⟩ := refers after ⟨before, by simp [split]⟩
    have declares := Compiled.declares_of_isActiveSlot (compiled ▸ isSlot)
    obtain ⟨name, id, slot, active, identified, rfl⟩ := isSlot
    exact ⟨name, id, rest, slot, active, identified, by simp, compiled ▸ declares⟩
  · exact Or.inl unrendered

def brokenHoverAndPrint : Configuration where
  hooks := [("broken", .composite .or []), ("hover", .leaf ":hover"),
    ("print", .composite .and [.leaf "@media print", .leaf ".page &"])]
  nodup := by decide

def pageFlattener : Flattener where
  hooks := Compiled.ofConfiguration (Identifier.named id) brokenHoverAndPrint
  settings := {}
  renderer := Renderer.pixels

/-- A style with branches for all of them, with a value that is no branch, and with a
value that is not rendered. -/
def page : Style :=
  [("broken", .object [("color", .text "red")]), ("color", .text "black"),
    ("print", .object [("color", .text "gray"), ("broken", .object [("margin", .text "0")]),
      ("hover", .object [("margin", .text "2em"), ("color", .text "navy")])]),
    ("hover", .text "none"), ("margin", .list []), ("unknown", .object [])]

/-- The references in the color of the flattened style go to declared slots. -/
theorem flatten_page_refers_to_declared :
    pageFlattener.hooks = Compiled.ofConfiguration (Identifier.named id) brokenHoverAndPrint ∧
      pageFlattener.hooks.HasNames ∧ page.WellFormed ∧
      (∀ text ∈ pageFlattener.texts page, ¬"var(".toList <:+: text.toList) ∧
      ∃ text, (pageFlattener.flatten page).get? "color" = some (.text text) ∧
        ∀ before after, text.toList = before ++ "var(".toList ++ after →
          ∃ name id rest, ∃ slot : Slot, pageFlattener.hooks.isActive name = true ∧
            pageFlattener.hooks.id? name = some id ∧
            after = (slot.property id).toList ++ ", ".toList ++ rest ∧
            pageFlattener.hooks.Declares (slot.property id) := by
  have compiled : pageFlattener.hooks =
      Compiled.ofConfiguration (Identifier.named id) brokenHoverAndPrint := rfl
  have named : pageFlattener.hooks.HasNames := by
    decide
  have wellFormed : page.WellFormed := by
    simp [page, Style.WellFormed, StyleValue.WellFormed, StyleValue.WellFormedMembers,
      StyleValue.WellFormedItems]
  have unreferenced : ∀ text ∈ pageFlattener.texts page,
      ¬"var(".toList <:+: text.toList := by
    have plain : ∀ text ∈ pageFlattener.texts page, '(' ∉ text.toList := by decide
    exact fun text mem => not_infix_of_not_mem (plain text mem)
  obtain ⟨text, flattened⟩ : ∃ text,
      (pageFlattener.flatten page).get? "color" = some (.text text) := ⟨_, rfl⟩
  refine ⟨compiled, named, wellFormed, unreferenced, text, flattened, ?_⟩
  rcases flatten_refers_to_declared pageFlattener compiled named wellFormed unreferenced
    flattened with ⟨-, -, unrendered⟩ | refers
  · simp [pageFlattener, Renderer.keepReferences, Renderer.pixels, Renderer.plain] at unrendered
  · exact refers

end Flattener

end ConditionalStyles
