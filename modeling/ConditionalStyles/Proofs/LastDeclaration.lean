import ConditionalStyles.Proofs.Branches
import ConditionalStyles.Proofs.References

/-!
# The last declaration wins

A flattened text is read under an assignment of truth values to the identifiers
of hooks: a reference to a slot is replaced by its fallback or by nothing.  Read
in this way, a property has the text that is declared last for it among the
declarations that apply.  Within an object its own properties apply first and
then its branches in order, as far as their hooks are true.
-/

namespace ConditionalStyles

open Css

/-! ## Reading under an assignment -/

/-- Whether a reference to a slot shows its fallback while the hook is true or
false. -/
def Slot.showsFallback (holds : Bool) : Slot → Bool
  | .whenFalse => !holds
  | .whenTrue => holds

namespace Compiled

def HasNames (compiled : Compiled) : Prop :=
  ∀ entry ∈ compiled.hooks, IsName entry.2.id

instance (compiled : Compiled) : Decidable compiled.HasNames :=
  inferInstanceAs (Decidable (∀ entry ∈ compiled.hooks, IsName entry.2.id))

/-- Whether a reference to a property shows its fallback, if the property is a
slot of a hook and exactly the identifiers that satisfy `truth` are true. -/
def shows (compiled : Compiled) (truth : String → Bool) (name : String) : Option Bool :=
  compiled.hooks.findSome? fun entry =>
    if name = Slot.whenTrue.property entry.2.id then some (truth entry.2.id)
    else if name = Slot.whenFalse.property entry.2.id then some (!truth entry.2.id)
    else none

def read (compiled : Compiled) (truth : String → Bool) (text : String) : List Char :=
  Css.read (compiled.shows truth) text.toList

/-- The slots of a configured hook show what the truth of its identifier says,
also where several hooks have one identifier. -/
theorem shows_property {compiled : Compiled} {name : String} {hook : CompiledHook}
    (configured : (name, hook) ∈ compiled.hooks) (truth : String → Bool) (slot : Slot) :
    compiled.shows truth (slot.property hook.id) =
      some (slot.showsFallback (truth hook.id)) := by
  have entryShows (id : String) :
      (if slot.property hook.id = Slot.whenTrue.property id then some (truth id)
        else if slot.property hook.id = Slot.whenFalse.property id then some (!truth id)
        else none) =
      if hook.id = id then some (slot.showsFallback (truth hook.id)) else none := by
    by_cases same : hook.id = id
    · subst same
      cases slot <;> simp [Slot.property_inj, Slot.showsFallback]
    · simp [Slot.property_inj, same]
  simp only [shows, entryShows]
  generalize compiled.hooks = hooks at configured
  induction hooks with
  | nil => simp at configured
  | cons entry rest ih =>
      by_cases same : hook.id = entry.2.id
      · simp [same]
      · rcases List.mem_cons.1 configured with rfl | later
        · exact absurd rfl same
        · simpa [same] using ih later

end Compiled

namespace Flattener

theorem toList_conditional (id whenTrue whenFalse : String) :
    (conditional id whenTrue whenFalse).toList =
      'v' :: 'a' :: 'r' :: '(' :: ((Slot.whenTrue.property id).toList ++
        ',' :: ((' ' :: whenTrue.toList) ++ ')' :: ' ' ::
          'v' :: 'a' :: 'r' :: '(' :: ((Slot.whenFalse.property id).toList ++
            ',' :: ((' ' :: whenFalse.toList) ++ ')' :: [])))) := by
  simp [conditional]

theorem balanced_conditional {id whenTrue whenFalse : String} (isName : IsName id)
    (balanced : Balanced whenTrue.toList) (balanced' : Balanced whenFalse.toList) :
    Balanced (conditional id whenTrue whenFalse).toList := by
  have second := Balanced.reference_fallback (isName.property .whenFalse) balanced'.space .nil
  rw [toList_conditional]
  exact .reference_fallback (isName.property _) balanced.space second.space

/-- A conditional text reads like one of its alternatives, between blanks. -/
theorem read_conditional {compiled : Compiled} (named : compiled.HasNames)
    {name : String} {hook : CompiledHook} (configured : (name, hook) ∈ compiled.hooks)
    (truth : String → Bool) {whenTrue whenFalse : String}
    (balanced : Balanced whenTrue.toList) (balanced' : Balanced whenFalse.toList) :
    Padded (compiled.read truth (conditional hook.id whenTrue whenFalse))
      (compiled.read truth (if truth hook.id then whenTrue else whenFalse)) := by
  have isName : IsName hook.id := named (name, hook) configured
  have shown := Compiled.shows_property configured truth
  unfold Compiled.read
  rw [toList_conditional,
    read_fallback (shown .whenTrue) (isName.property _) balanced.space, read_space,
    read_space, read_fallback (shown .whenFalse) (isName.property _) balanced'.space, read_nil]
  cases truth hook.id with
  | true =>
      simp only [Slot.showsFallback, if_true, Bool.not_true, Bool.false_eq_true, if_false,
        read_space]
      exact (Padded.append_space _).trans (Padded.cons_space _)
  | false =>
      simp only [Slot.showsFallback, if_true, Bool.not_false, Bool.false_eq_true, if_false,
        read_space]
      simpa using (Padded.cons_space _).trans (Padded.cons_space _)

/-! ## Declarations -/

def ownText? (flattener : Flattener) (style : Style) (property : String) : Option String :=
  if flattener.hooks.contains property then none
  else (Entries.get? style property).bind (flattener.renderer.keepReferences property)

/-- Whether the branch of a hook applies to a property, given the keys after it. -/
def applies (flattener : Flattener) (truth : String → Bool) (later : List String)
    (key property : String) : Bool :=
  match flattener.hooks.hooks.get? key with
  | none => false
  | some hook => hook.active && truth hook.id && !flattener.isWithheld later property

mutual

/-- The texts declared for a property in the object under a hook, in the order in
which they apply.  There are none if the value is not an object. -/
def declarationsIn (flattener : Flattener) (truth : String → Bool) (property : String) :
    StyleValue → List String
  | .object style =>
      (flattener.ownText? style property).toList ++
        flattener.branchDeclarations truth property style
  | _ => []

def branchDeclarations (flattener : Flattener) (truth : String → Bool)
    (property : String) : Style → List String
  | [] => []
  | (key, value) :: rest =>
      (if flattener.applies truth (Entries.keys rest) key property then
        flattener.declarationsIn truth property value
      else []) ++ flattener.branchDeclarations truth property rest

end

/-- The texts declared for a property in a style, in the order in which they apply. -/
def declarations (flattener : Flattener) (truth : String → Bool) (style : Style)
    (property : String) : List String :=
  flattener.declarationsIn truth property (.object style)

mutual

def textsIn (flattener : Flattener) : StyleValue → List String
  | .object style => flattener.texts style
  | _ => []

/-- The texts that the values of a style and of its branches are rendered to. -/
def texts (flattener : Flattener) : Style → List String
  | [] => []
  | (key, value) :: rest =>
      (if flattener.hooks.contains key then flattener.textsIn value
      else (flattener.renderer.keepReferences key value).toList) ++ flattener.texts rest

end

/-! ## Agreement of cells with declarations -/

/-- A cell agrees with the texts declared for its property: its text reads like
the last of them, or like `otherwise` if there is none, and there is one if all
hooks are true.  Without a text it is the cell that the object had at first, and
nothing is declared. -/
def Agrees (flattener : Flattener) (truth : String → Bool) (otherwise : String)
    (initial cell : Option Cell) (declared : List String) : Prop :=
  match cell.bind Cell.text? with
  | some text =>
      Balanced text.toList ∧ ((∀ id, truth id = true) → declared ≠ []) ∧
        Padded (flattener.hooks.read truth text)
          (flattener.hooks.read truth (declared.getLast?.getD otherwise))
  | none => cell = initial ∧ declared = []

section

variable {flattener : Flattener} {truth : String → Bool} {outer : String → Option String}
  {cells : Entries Cell} {property : String} {initial : Option Cell} {declared : List String}

theorem agrees_rendered {otherwise text : String} :
    flattener.Agrees truth otherwise initial (some (.rendered text)) declared ↔
      Balanced text.toList ∧ ((∀ id, truth id = true) → declared ≠ []) ∧
        Padded (flattener.hooks.read truth text)
          (flattener.hooks.read truth (declared.getLast?.getD otherwise)) :=
  Iff.rfl

theorem Agrees.textOf
    (agrees : flattener.Agrees truth
      ((outer property).getD flattener.settings.fallback.keyword) initial
      (cells.get? property) declared)
    (balanced : Balanced
      ((outer property).getD flattener.settings.fallback.keyword).toList) :
    Balanced (flattener.textOf outer cells property).toList ∧
      Padded (flattener.hooks.read truth (flattener.textOf outer cells property))
        (flattener.hooks.read truth (declared.getLast?.getD
          ((outer property).getD flattener.settings.fallback.keyword))) := by
  unfold Agrees at agrees
  unfold Flattener.textOf resolve
  cases rendered : (cells.get? property).bind Cell.text? with
  | some text =>
      rw [rendered] at agrees
      exact ⟨agrees.1, agrees.2.2⟩
  | none =>
      rw [rendered] at agrees
      obtain ⟨-, rfl⟩ := agrees
      exact ⟨balanced, Padded.refl _⟩

/-- A conditional text reads like the last declaration if its alternatives do, one
with the declarations of the branch and the other one without. -/
theorem read_conditional_getLast? (named : flattener.hooks.HasNames) {key : String}
    {hook : CompiledHook} (configured : (key, hook) ∈ flattener.hooks.hooks)
    {whenTrue whenFalse otherwise : String} {inBranch : List String}
    (balanced : Balanced whenTrue.toList) (balanced' : Balanced whenFalse.toList)
    (readsTrue : Padded (flattener.hooks.read truth whenTrue)
      (flattener.hooks.read truth (inBranch.getLast?.getD whenFalse)))
    (readsFalse : Padded (flattener.hooks.read truth whenFalse)
      (flattener.hooks.read truth (declared.getLast?.getD otherwise))) :
    Padded (flattener.hooks.read truth (conditional hook.id whenTrue whenFalse))
      (flattener.hooks.read truth
        ((declared ++ if truth hook.id then inBranch else []).getLast?.getD otherwise)) := by
  apply (read_conditional named configured truth balanced balanced').trans
  cases truth hook.id with
  | false => simpa using readsFalse
  | true =>
      -- Without a declaration of its own the branch shows the text around it.
      apply readsTrue.trans
      cases last : inBranch.getLast? with
      | none =>
          rw [List.getLast?_eq_none_iff.1 last]
          simpa using readsFalse
      | some text => simp [List.getLast?_append, last, Padded.refl]

/-- The cell taken from a branch that applies agrees with the declarations of the
branch after those of the object around. -/
theorem Agrees.takenCell (named : flattener.hooks.HasNames) {key : String}
    {hook : CompiledHook} (configured : (key, hook) ∈ flattener.hooks.hooks)
    (later : List String)
    (agrees : flattener.Agrees truth
      ((outer property).getD flattener.settings.fallback.keyword) initial
      (cells.get? property) declared)
    (balanced : Balanced
      ((outer property).getD flattener.settings.fallback.keyword).toList)
    {inner cell : Option Cell} {inBranch : List String}
    (branchAgrees : flattener.Agrees truth (flattener.textOf outer cells property) inner
      cell inBranch) :
    flattener.Agrees truth ((outer property).getD flattener.settings.fallback.keyword)
      initial
      (flattener.takenCell hook.id later outer cells property (cell.bind Cell.text?))
      (declared ++
        if truth hook.id && !flattener.isWithheld later property then inBranch else []) := by
  obtain ⟨balanced', reads⟩ := agrees.textOf balanced
  unfold Agrees at branchAgrees
  cases rendered : cell.bind Cell.text? with
  | none =>
      rw [rendered] at branchAgrees
      obtain ⟨-, rfl⟩ := branchAgrees
      simpa [Flattener.takenCell] using agrees
  | some whenTrue =>
      rw [rendered] at branchAgrees
      obtain ⟨balancedTrue, declaredTrue, readsTrue⟩ := branchAgrees
      cases withheld : flattener.isWithheld later property with
      | true => simpa [Flattener.takenCell, withheld] using agrees
      | false =>
          have taken : flattener.takenCell hook.id later outer cells property
              (some whenTrue) = some (.rendered (conditional hook.id whenTrue
                (flattener.textOf outer cells property))) := by
            simp [Flattener.takenCell, withheld]
          rw [taken, agrees_rendered]
          refine ⟨balanced_conditional (named _ configured) balancedTrue balanced', ?_, ?_⟩
          · intro allTrue
            simp [allTrue, declaredTrue allTrue]
          · simpa using read_conditional_getLast? named configured balancedTrue balanced'
              readsTrue reads

theorem mem_texts {style : Style} {value : StyleValue} {text : String}
    (plain : flattener.hooks.contains property = false)
    (present : Entries.get? style property = some value)
    (rendered : flattener.renderer.keepReferences property value = some text) :
    text ∈ flattener.texts style := by
  induction style with
  | nil => simp at present
  | cons entry rest ih =>
      obtain ⟨key, first⟩ := entry
      rw [texts, List.mem_append]
      by_cases wanted : key = property
      · subst wanted
        obtain rfl : first = value := by simpa using present
        exact Or.inl (by simp [plain, rendered])
      · exact Or.inr (ih (by simpa [wanted] using present))

/-- The cell of an object's own property agrees with its own declaration. -/
theorem agrees_ownCells {style : Style} (otherwise : String)
    (balanced : ∀ text ∈ flattener.texts style, Balanced text.toList) :
    flattener.Agrees truth otherwise ((flattener.ownCells style).get? property)
      ((flattener.ownCells style).get? property)
      (flattener.ownText? style property).toList := by
  rw [get?_ownCells, ownText?]
  cases plain : flattener.hooks.contains property with
  | true => simp [Agrees]
  | false =>
      cases present : Entries.get? style property with
      | none => simp [Agrees]
      | some value =>
          cases rendered : flattener.renderer.keepReferences property value with
          | none => simp [Agrees, Flattener.cell, Cell.text?, rendered]
          | some text =>
              have textBalanced := balanced text (mem_texts plain present rendered)
              simpa [Agrees, Flattener.cell, Cell.text?, rendered] using
                ⟨textBalanced, Padded.refl _⟩

end

mutual

/-- The cells of a branch agree with its declarations. -/
theorem branchCells_agrees {flattener : Flattener} (named : flattener.hooks.HasNames)
    (truth : String → Bool) (property : String) (outer : String → Option String)
    (value : StyleValue) (wellFormed : value.WellFormed)
    (balancedTexts : ∀ text ∈ flattener.textsIn value, Balanced text.toList)
    (balanced : Balanced
      ((outer property).getD flattener.settings.fallback.keyword).toList) :
    ∃ initial, flattener.Agrees truth
      ((outer property).getD flattener.settings.fallback.keyword) initial
      ((flattener.branchCells outer value).get? property)
      (flattener.declarationsIn truth property value) := by
  cases value with
  | object style =>
      rw [branchCells, declarationsIn]
      exact ⟨_, run_agrees named truth property outer style wellFormed.2 balancedTexts
        balanced (agrees_ownCells _ balancedTexts)⟩
  | _ => exact ⟨none, by simp [branchCells, declarationsIn, Agrees]⟩

/-- Going through a style adds the declarations of its branches. -/
theorem run_agrees {flattener : Flattener} (named : flattener.hooks.HasNames)
    (truth : String → Bool) (property : String) (outer : String → Option String)
    (style : Style) (wellFormed : StyleValue.WellFormedMembers style)
    (balancedTexts : ∀ text ∈ flattener.texts style, Balanced text.toList)
    (balanced : Balanced
      ((outer property).getD flattener.settings.fallback.keyword).toList)
    {cells : Entries Cell} {initial : Option Cell} {declared : List String}
    (agrees : flattener.Agrees truth
      ((outer property).getD flattener.settings.fallback.keyword) initial
      (cells.get? property) declared) :
    flattener.Agrees truth ((outer property).getD flattener.settings.fallback.keyword)
      initial ((flattener.run outer style cells).get? property)
      (declared ++ flattener.branchDeclarations truth property style) := by
  -- What the cells agree with grows by the declarations of one branch at a time.
  match style with
  | [] => simpa [run, branchDeclarations] using agrees
  | (key, value) :: rest =>
      rw [texts] at balancedTexts
      have restTexts : ∀ text ∈ flattener.texts rest, Balanced text.toList :=
        fun text mem => balancedTexts text (List.mem_append_right _ mem)
      rw [run, branchDeclarations, applies, ← List.append_assoc]
      cases configured : flattener.hooks.hooks.get? key with
      | none =>
          have agrees' : flattener.Agrees truth
              ((outer property).getD flattener.settings.fallback.keyword) initial
              ((if flattener.settings.sort then cells.moveToEnd key else cells).get? property)
              declared := by
            split
            · rwa [Entries.get?_moveToEnd]
            · exact agrees
          simpa using run_agrees named truth property outer rest wellFormed.2 restTexts
            balanced agrees'
      | some hook =>
          cases active : hook.active with
          | false =>
              simpa [active] using run_agrees named truth property outer rest wellFormed.2
                restTexts balanced agrees
          | true =>
              have isHook : flattener.hooks.contains key = true := by
                rw [← Bool.not_eq_false, Compiled.contains_eq_false_iff, configured]
                simp
              have branchTexts : ∀ text ∈ flattener.textsIn value, Balanced text.toList := by
                intro text mem
                rw [if_pos isHook] at balancedTexts
                exact balancedTexts text (List.mem_append_left _ mem)
              -- Within the branch, the cells around it are what shows by default.
              obtain ⟨inner, branchAgrees⟩ := branchCells_agrees named truth property
                (resolve cells outer) value wellFormed.1 branchTexts
                (agrees.textOf balanced).1
              have taken := agrees.takenCell named (Entries.mem_of_get?_eq_some configured)
                (Entries.keys rest) balanced branchAgrees
              rw [← get?_takeBranch _ _ _ _
                (flattener.nodup_keys_branchCells _ value wellFormed.1)] at taken
              simpa [active] using run_agrees named truth property outer rest wellFormed.2
                restTexts balanced taken

end

theorem eq_rendered_of_text? {cell : Option Cell} {text : String}
    (rendered : cell.bind Cell.text? = some text) : cell = some (.rendered text) := by
  cases cell with
  | none => simp at rendered
  | some cell =>
      cases cell with
      | inert value => simp [Cell.text?] at rendered
      | rendered other => simpa [Cell.text?] using rendered

theorem value_cell_of_text? {flattener : Flattener} {property : String} {value : StyleValue}
    (unrendered : (flattener.cell property value).text? = none) :
    (flattener.cell property value).value = value := by
  unfold Flattener.cell at unrendered ⊢
  split at unrendered
  · simp [Cell.text?] at unrendered
  · rfl

theorem value_ownCells_of_text? {flattener : Flattener} {style : Style} {property : String}
    (unrendered : ((flattener.ownCells style).get? property).bind Cell.text? = none) :
    ((flattener.ownCells style).get? property).map Cell.value =
      if flattener.hooks.contains property then none else Entries.get? style property := by
  rw [get?_ownCells] at unrendered ⊢
  split
  · rfl
  · rename_i isPlain
    rw [if_neg isPlain] at unrendered
    cases present : Entries.get? style property with
    | none => rfl
    | some value =>
        rw [present] at unrendered
        exact congrArg some (value_cell_of_text? unrendered)

theorem hasNames_of_forall {scheme : Identifier.Scheme} {configuration : Configuration}
    (portable : ∀ name condition, ∀ character ∈ (scheme name condition).toList,
      Identifier.isPortable character = true) :
    (Compiled.ofConfiguration scheme configuration).HasNames := by
  intro entry mem
  obtain ⟨⟨name, condition⟩, -, rfl⟩ := List.mem_map.1 mem
  exact .of_isPortable (portable name condition.normalize)

/-- Flattening means that the last declaration that applies wins.  A property gets
a text exactly if it is declared for some assignment, and under every assignment
this text reads, up to blanks around it, like the last declaration that applies, or
like the fallback keyword if none does.  Otherwise the property has the value that
the style gives it.

In the texts that values of the style are rendered to, every parenthesis has to be
closed: a text ends up inside a reference, and one more parenthesis would close that
reference.  This is asked of the style's own `var(` texts too, which pass through
unrendered, and these are read like the references of flattening.  Identifiers have
to consist of characters of names, as those that are computed from conditions do. -/
theorem flatten_reads_last_declaration :
    (∀ configuration : Configuration,
      (Compiled.ofConfiguration Identifier.anonymous configuration).HasNames ∧
        (Compiled.ofConfiguration Identifier.readable configuration).HasNames) ∧
    ∀ flattener : Flattener, flattener.hooks.HasNames →
      ∀ style : Style, style.WellFormed →
        (∀ text ∈ flattener.texts style, Balanced text.toList) →
        ∀ property : String,
          (∃ text, (flattener.flatten style).get? property = some (.text text) ∧
            (∃ truth, flattener.declarations truth style property ≠ []) ∧
            ∀ truth, Padded (flattener.hooks.read truth text)
              (flattener.hooks.read truth
                ((flattener.declarations truth style property).getLast?.getD
                  flattener.settings.fallback.keyword))) ∨
          ((flattener.flatten style).get? property =
              (if flattener.hooks.contains property then none
                else Entries.get? style property) ∧
            ∀ truth, flattener.declarations truth style property = []) := by
  refine ⟨fun configuration => ⟨hasNames_of_forall ?_, hasNames_of_forall ?_⟩, ?_⟩
  · exact fun name condition => Identifier.isPortable_of_mem_anonymous
  · exact fun name condition => Identifier.isPortable_of_mem_readable
  intro flattener named style wellFormed balancedTexts property
  have keyword : Balanced flattener.settings.fallback.keyword.toList := by
    cases flattener.settings.fallback <;> decide
  have agrees (truth : String → Bool) : flattener.Agrees truth
      flattener.settings.fallback.keyword ((flattener.ownCells style).get? property)
      ((flattener.branchCells (fun _ => none) (.object style)).get? property)
      (flattener.declarations truth style property) :=
    run_agrees named truth property (fun _ => none) style wellFormed.2 balancedTexts keyword
      (agrees_ownCells _ balancedTexts)
  rw [flatten, Entries.get?_mapValues]
  generalize (flattener.branchCells (fun _ => none) (.object style)).get? property = cell
    at agrees ⊢
  cases rendered : cell.bind Cell.text? with
  | some text =>
      obtain rfl := eq_rendered_of_text? rendered
      refine Or.inl ⟨text, rfl, ⟨fun _ => true, ?_⟩, fun truth => ?_⟩
      · exact (agrees_rendered.1 (agrees _)).2.1 fun _ => rfl
      · exact (agrees_rendered.1 (agrees truth)).2.2
  | none =>
      have undeclared (truth : String → Bool) :
          cell = (flattener.ownCells style).get? property ∧
            flattener.declarations truth style property = [] := by
        have agrees := agrees truth
        unfold Agrees at agrees
        rw [rendered] at agrees
        exact agrees
      refine Or.inr ⟨?_, fun truth => (undeclared truth).2⟩
      obtain ⟨own, -⟩ := undeclared fun _ => true
      rw [own] at rendered ⊢
      exact value_ownCells_of_text? rendered

def hoverAndDark : Flattener where
  hooks := Compiled.ofConfiguration (Identifier.named id)
    (Configuration.ofList [("hover", .leaf ":hover"), ("dark", .leaf ".dark &")])
  settings := {}
  renderer := Renderer.plain

def nestedColor : Style :=
  [("color", .text "black"),
    ("hover", .object [("color", .text "rgb(0, 0, 255)"),
      ("dark", .object [("color", .text "navy")])])]

/-- The nested color reads like its last declaration under every assignment. -/
theorem flatten_reads_nested_color :
    hoverAndDark.hooks.HasNames ∧ Style.WellFormed nestedColor ∧
      (∀ text ∈ hoverAndDark.texts nestedColor, Balanced text.toList) ∧
      ∃ text, (hoverAndDark.flatten nestedColor).get? "color" = some (.text text) ∧
        ∀ truth, Padded (hoverAndDark.hooks.read truth text)
          (hoverAndDark.hooks.read truth
            ((hoverAndDark.declarations truth nestedColor "color").getLast?.getD
              "unset")) := by
  have named : hoverAndDark.hooks.HasNames := by
    decide
  have wellFormed : Style.WellFormed nestedColor := by
    simp [nestedColor, Style.WellFormed, StyleValue.WellFormed, StyleValue.WellFormedMembers]
  have balanced : ∀ text ∈ hoverAndDark.texts nestedColor, Balanced text.toList := by
    decide
  refine ⟨named, wellFormed, balanced, ?_⟩
  rcases flatten_reads_last_declaration.2 hoverAndDark named nestedColor wellFormed balanced
    "color" with ⟨text, flattened, -, reads⟩ | ⟨-, undeclared⟩
  · exact ⟨text, flattened, reads⟩
  · exact absurd (undeclared fun _ => true) (by decide)

end Flattener

end ConditionalStyles
