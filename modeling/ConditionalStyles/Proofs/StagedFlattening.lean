import ConditionalStyles.Proofs.Branches

/-!
# Flattening in stages

A style may be flattened before branches are added to it.  The texts that the first
stage leaves are rendered as they are by the second one, and its properties are in
the order in which the second one leaves them, so that the added branches find the
cells that they would have found in one stage.  In particular flattening twice is
the same as flattening once.
-/

namespace ConditionalStyles

/-! ## Renderers that keep their output -/

/-- Whether a renderer leaves the texts that it gives as they are.  References are
not asked about, since they are never rendered. -/
def Renderer.KeepsOutput (renderer : Renderer) : Prop :=
  ∀ property value text, renderer property value = some text →
    isReference text = false → renderer property (.text text) = some text

theorem Renderer.keepReferences_of_isReference (renderer : Renderer) (property : String)
    {text : String} (reference : isReference text = true) :
    renderer.keepReferences property (.text text) = some text := by
  rw [keepReferences, if_pos reference]

theorem Renderer.KeepsOutput.keepReferences {renderer : Renderer}
    (keeps : renderer.KeepsOutput) {property : String} {value : StyleValue} {text : String}
    (rendered : renderer.keepReferences property value = some text) :
    renderer.keepReferences property (.text text) = some text := by
  cases reference : isReference text with
  | true => exact renderer.keepReferences_of_isReference property reference
  | false =>
      have inner : renderer property value = some text := by
        unfold Renderer.keepReferences at rendered
        split at rendered
        · split at rendered
          · rename_i content isRef
            obtain rfl := Option.some.inj rendered
            simp [isRef] at reference
          · exact rendered
        · exact rendered
      rw [Renderer.keepReferences, if_neg (by simp [reference])]
      exact keeps property value text inner reference

namespace Flattener

variable (flattener : Flattener)

/-! ## Cells that a second stage finds again -/

/-- Whether the value of a cell gives the same cell again. -/
structure Settled (entry : String × Cell) : Prop where
  plain : flattener.hooks.contains entry.1 = false
  again : flattener.cell entry.1 entry.2.value = entry.2

theorem isReference_conditional (id whenTrue whenFalse : String) :
    Renderer.isReference (conditional id whenTrue whenFalse) = true := by
  simp [Renderer.isReference, conditional]

theorem settled_conditional {property : String}
    (plain : flattener.hooks.contains property = false) (id whenTrue whenFalse : String) :
    flattener.Settled (property, .rendered (conditional id whenTrue whenFalse)) where
  plain := plain
  again := by
    rw [cell, Cell.value, Renderer.keepReferences_of_isReference _ _
      (isReference_conditional id whenTrue whenFalse)]

/-- If the renderer keeps its output, all cells are settled. -/
theorem persists_settled (keeps : flattener.renderer.KeepsOutput) :
    flattener.Persists flattener.Settled where
  own key value plain := by
    refine ⟨plain, ?_⟩
    cases rendered : flattener.renderer.keepReferences key value with
    | none => simp only [cell, rendered, Cell.value]
    | some text => simp only [cell, rendered, Cell.value, keeps.keepReferences rendered]
  taken _ id whenTrue whenFalse settled :=
    flattener.settled_conditional settled.plain id whenTrue whenFalse

variable {flattener}

theorem ownCells_mapValues {cells : Entries Cell}
    (settled : ∀ entry ∈ cells, flattener.Settled entry) :
    flattener.ownCells (Entries.mapValues Cell.value cells) = cells := by
  induction cells with
  | nil => rfl
  | cons first rest ih =>
      obtain ⟨key, first⟩ := first
      obtain ⟨plain, again⟩ := settled _ List.mem_cons_self
      have later := ih fun entry mem => settled entry (List.mem_cons_of_mem _ mem)
      have step : Entries.mapValues Cell.value ((key, first) :: rest) =
          (key, first.value) :: Entries.mapValues Cell.value rest := rfl
      rw [step, ownCells, if_neg (by simpa using plain), later, again]

/-! ## Properties in the order in which they are left -/

/-- Where the order of the source decides, going through properties moves their
cells behind the others. -/
theorem run_moves (sort : flattener.settings.sort = true) (outer : String → Option String)
    {style : Style} {front : Entries Cell}
    (plain : ∀ key ∈ Entries.keys style, flattener.hooks.contains key = false)
    (sameKeys : Entries.keys style = Entries.keys front) (back : Entries Cell)
    (distinct : (Entries.keys (front ++ back)).Nodup) :
    flattener.run outer style (front ++ back) = back ++ front := by
  induction style generalizing front back with
  | nil =>
      obtain rfl : front = [] := List.map_eq_nil_iff.1 sameKeys.symm
      rw [run, List.append_nil, List.nil_append]
  | cons entry rest ih =>
      obtain ⟨key, value⟩ := entry
      cases front with
      | nil => simp at sameKeys
      | cons cell front =>
          obtain ⟨name, cell⟩ := cell
          rw [Entries.keys_cons, Entries.keys_cons] at sameKeys
          obtain ⟨rfl, restKeys⟩ := List.cons.inj sameKeys
          have absent : key ∉ Entries.keys (front ++ back) := (List.nodup_cons.1 distinct).1
          have moved : Entries.moveToEnd ((key, cell) :: (front ++ back)) key =
              front ++ (back ++ [(key, cell)]) := by
            rw [Entries.moveToEnd_cons absent, List.append_assoc]
          have distinct' : (Entries.keys (front ++ (back ++ [(key, cell)]))).Nodup := by
            rw [← moved]
            exact Entries.nodup_keys_moveToEnd distinct key
          rw [run_of_plain outer (plain key List.mem_cons_self), if_pos sort,
            List.cons_append, moved,
            ih (fun other mem => plain other (List.mem_cons_of_mem _ mem)) restKeys _ distinct',
            List.append_assoc, List.singleton_append]

theorem run_sameKeys (outer : String → Option String) {style : Style}
    {cells : Entries Cell}
    (plain : ∀ key ∈ Entries.keys style, flattener.hooks.contains key = false)
    (sameKeys : Entries.keys style = Entries.keys cells)
    (distinct : (Entries.keys cells).Nodup) :
    flattener.run outer style cells = cells := by
  cases sort : flattener.settings.sort with
  | true =>
      have moved := run_moves sort outer plain sameKeys [] (by rwa [List.append_nil])
      rwa [List.append_nil, List.nil_append] at moved
  | false =>
      clear sameKeys distinct
      induction style with
      | nil => rw [run]
      | cons entry rest ih =>
          obtain ⟨key, value⟩ := entry
          rw [run_of_plain outer (plain key List.mem_cons_self), if_neg (by simp [sort])]
          exact ih fun other mem => plain other (List.mem_cons_of_mem _ mem)

/-! ## Branches behind the other entries -/

/-- A style with hooks at its end is gone through in two parts. -/
theorem run_append (outer : String → Option String) (first : Style) {second : Style}
    (hooks : ∀ key ∈ Entries.keys second, flattener.hooks.contains key = true)
    (cells : Entries Cell) :
    flattener.run outer (first ++ second) cells =
      flattener.run outer second (flattener.run outer first cells) := by
  induction first generalizing cells with
  | nil => rw [List.nil_append, run]
  | cons entry rest ih =>
      obtain ⟨key, value⟩ := entry
      rw [List.cons_append]
      cases configured : flattener.hooks.hooks.get? key with
      | none =>
          have plain := Compiled.contains_eq_false_iff.2 configured
          rw [run_of_plain outer plain, run_of_plain outer plain]
          exact ih _
      | some hook =>
          have unchanged : flattener.takeBranch hook.id (Entries.keys (rest ++ second)) outer
                (flattener.branchCells (resolve cells outer) value) cells =
              flattener.takeBranch hook.id (Entries.keys rest) outer
                (flattener.branchCells (resolve cells outer) value) cells := by
            refine flattener.takeBranch_congr _ _ (fun property mem => ?_) _
            have plain := flattener.contains_of_mem_branchCells _ mem
            have absent : property ∉ Entries.keys second := by
              intro listed
              rw [hooks property listed] at plain
              cases plain
            simp [absent]
          rw [run_of_hook outer configured, run_of_hook outer configured, unchanged]
          exact ih _

/-! ## Two stages -/

/-- Hooks at the end of a style find the cells of what precedes them. -/
theorem branchCells_append (outer : String → Option String) (first : Style)
    {second : Style}
    (hooks : ∀ key ∈ Entries.keys second, flattener.hooks.contains key = true) :
    flattener.branchCells outer (.object (first ++ second)) =
      flattener.run outer second (flattener.branchCells outer (.object first)) := by
  rw [branchCells, branchCells, ownCells_append, ownCells_of_hooks _ hooks, List.append_nil,
    run_append outer first hooks]

/-- A flattened style has the cells that it was flattened to. -/
theorem branchCells_flatten (keeps : flattener.renderer.KeepsOutput) {style : Style}
    (distinct : (Entries.keys style).Nodup) :
    flattener.branchCells (fun _ => none) (.object (flattener.flatten style)) =
      flattener.branchCells (fun _ => none) (.object style) := by
  have own : flattener.ownCells (flattener.flatten style) =
      flattener.branchCells (fun _ => none) (.object style) :=
    ownCells_mapValues ((flattener.persists_settled keeps).branchCells _ _)
  have sameKeys : Entries.keys (flattener.flatten style) =
      Entries.keys (flattener.branchCells (fun _ => none) (.object style)) :=
    Entries.keys_mapValues _ _
  have plain : ∀ key ∈ Entries.keys (flattener.flatten style),
      flattener.hooks.contains key = false := fun _ => flattener.contains_of_mem_flatten
  have kept := run_sameKeys (fun _ => none) plain sameKeys
    (sameKeys ▸ flattener.nodup_keys_flatten distinct)
  rw [branchCells, own, kept]

/-- Flattening in two stages is flattening in one: branches may be added to a style
before or after it is flattened, if the renderer keeps its output.  What is flattened
in the second stage lists no key twice.  Without branches this says that flattening a
second time changes nothing. -/
theorem flatten_in_stages (flattener : Flattener)
    (keeps : flattener.renderer.KeepsOutput) (style branches : Style)
    (distinct : (Entries.keys (style ++ branches)).Nodup)
    (hooks : ∀ key ∈ Entries.keys branches, flattener.hooks.contains key = true) :
    (Entries.keys (flattener.flatten style ++ branches)).Nodup ∧
      flattener.flatten (style ++ branches) =
        flattener.flatten (flattener.flatten style ++ branches) := by
  rw [Entries.keys_append, List.nodup_append] at distinct
  obtain ⟨styleDistinct, branchesDistinct, -⟩ := distinct
  constructor
  · rw [Entries.keys_append, List.nodup_append]
    refine ⟨flattener.nodup_keys_flatten styleDistinct, branchesDistinct, ?_⟩
    rintro key mem hook hookMem rfl
    have plain := flattener.contains_of_mem_flatten mem
    rw [hooks key hookMem] at plain
    cases plain
  · have staged := branchCells_append (fun _ => none) (flattener.flatten style) hooks
    rw [branchCells_flatten keeps styleDistinct,
      ← branchCells_append (fun _ => none) style hooks] at staged
    rw [flatten, flatten, staged]

theorem keepsOutput_plain : Renderer.plain.KeepsOutput :=
  fun _ _ _ _ _ => rfl

def sortedHoverAndDark : Flattener where
  hooks := Compiled.ofConfiguration (Identifier.named id)
    (Configuration.ofList [("hover", .leaf ":hover"), ("dark", .leaf ".dark &")])
  settings := { sort := true }
  renderer := Renderer.plain

def hoverStyle : Style :=
  [("hover", .object [("color", .text "red"), ("width", .text "0"),
      ("border", .text "none")]),
    ("color", .text "black"), ("border", .null)]

def darkBranch : Style :=
  [("dark", .object [("color", .text "white"),
    ("hover", .object [("border", .text "thin"), ("width", .text "1px")])])]

/-- The branch is flattened alike before and after the style. -/
theorem flatten_in_stages_dark :
    sortedHoverAndDark.renderer.KeepsOutput ∧
      (Entries.keys (hoverStyle ++ darkBranch)).Nodup ∧
      (∀ key ∈ Entries.keys darkBranch, sortedHoverAndDark.hooks.contains key = true) ∧
      sortedHoverAndDark.flatten (hoverStyle ++ darkBranch) =
        sortedHoverAndDark.flatten (sortedHoverAndDark.flatten hoverStyle ++ darkBranch) := by
  have distinct : (Entries.keys (hoverStyle ++ darkBranch)).Nodup := by
    decide
  have hooks : ∀ key ∈ Entries.keys darkBranch,
      sortedHoverAndDark.hooks.contains key = true := by
    decide
  exact ⟨keepsOutput_plain, distinct, hooks,
    (flatten_in_stages sortedHoverAndDark keepsOutput_plain hoverStyle darkBranch distinct
      hooks).2⟩

end Flattener

end ConditionalStyles
