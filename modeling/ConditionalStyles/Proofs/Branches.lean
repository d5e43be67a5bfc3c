import ConditionalStyles.Style.Flatten

/-!
# Cells during flattening

What each step of flattening does to the keys of the cells and to the cell of
one property.  Taking a branch into the cells around it changes a property only
if the branch has a text for it, and every step keeps the keys distinct.

What holds of the cells of all values, and passes from a text of a branch to the
conditional text that it becomes, holds of every cell at any depth (`Persists`).  In
particular no cell belongs to a hook.
-/

namespace ConditionalStyles

theorem Compiled.contains_eq_false_iff {compiled : Compiled} {name : String} :
    compiled.contains name = false ↔ compiled.hooks.get? name = none := by
  rw [Entries.get?_eq_none_iff, ← Entries.contains_iff, Bool.not_eq_true]
  rfl

theorem Compiled.contains_of_get? {compiled : Compiled} {name : String} {hook : CompiledHook}
    (configured : compiled.hooks.get? name = some hook) : compiled.contains name = true := by
  rw [← Bool.not_eq_false, contains_eq_false_iff, configured]
  simp

namespace Flattener

variable (flattener : Flattener)

/-! ## The cells of an object itself -/

theorem keys_ownCells (style : Style) :
    Entries.keys (flattener.ownCells style) =
      (Entries.keys style).filter fun key => !flattener.hooks.contains key := by
  induction style with
  | nil => rfl
  | cons entry rest ih =>
      obtain ⟨key, value⟩ := entry
      cases hook : flattener.hooks.contains key <;> simp [ownCells, hook, ih]

theorem nodup_keys_ownCells {style : Style} (distinct : (Entries.keys style).Nodup) :
    (Entries.keys (flattener.ownCells style)).Nodup := by
  rw [keys_ownCells]
  exact distinct.filter _

theorem get?_ownCells (style : Style) (property : String) :
    (flattener.ownCells style).get? property =
      if flattener.hooks.contains property then none
      else (Entries.get? style property).map (flattener.cell property) := by
  induction style with
  | nil => simp [ownCells]
  | cons entry rest ih =>
      obtain ⟨key, value⟩ := entry
      by_cases wanted : key = property
      · subst wanted
        cases hook : flattener.hooks.contains key <;> simp [ownCells, hook, ih]
      · cases hook : flattener.hooks.contains key <;> simp [ownCells, hook, wanted, ih]

theorem ownCells_append (first second : Style) :
    flattener.ownCells (first ++ second) =
      flattener.ownCells first ++ flattener.ownCells second := by
  induction first with
  | nil => rfl
  | cons entry rest ih =>
      obtain ⟨key, value⟩ := entry
      rw [List.cons_append, ownCells, ownCells, ih]
      split
      · rfl
      · rw [List.cons_append]

theorem ownCells_of_hooks {style : Style}
    (hooks : ∀ key ∈ Entries.keys style, flattener.hooks.contains key = true) :
    flattener.ownCells style = [] := by
  induction style with
  | nil => rfl
  | cons entry rest ih =>
      obtain ⟨key, value⟩ := entry
      rw [ownCells, if_pos (hooks key List.mem_cons_self)]
      exact ih fun other mem => hooks other (List.mem_cons_of_mem _ mem)

/-! ## Taking a branch -/

variable (id : String) (later : List String) (outer : String → Option String)

theorem nodup_keys_takeCell {cells : Entries Cell}
    (distinct : (Entries.keys cells).Nodup) (entry : String × Cell) :
    (Entries.keys (flattener.takeCell id later outer cells entry)).Nodup := by
  unfold takeCell
  split
  · exact distinct
  · split
    · exact distinct
    · exact Entries.nodup_keys_write distinct _ _ _

theorem nodup_keys_takeBranch {branch cells : Entries Cell}
    (distinct : (Entries.keys cells).Nodup) :
    (Entries.keys (flattener.takeBranch id later outer branch cells)).Nodup := by
  unfold takeBranch
  induction branch generalizing cells with
  | nil => exact distinct
  | cons entry rest ih => exact ih (flattener.nodup_keys_takeCell id later outer distinct entry)

/-- The text that applies to a property by the cells, by the objects around, or by
default. -/
def textOf (outer : String → Option String) (cells : Entries Cell) (property : String) :
    String :=
  (resolve cells outer property).getD flattener.settings.fallback.keyword

/-- Whether a branch must not change a property, because the order of the source
decides and the property is among the keys after the hook. -/
def isWithheld (later : List String) (property : String) : Bool :=
  flattener.settings.sort && later.contains property

/-- The cell that a property gets from a cell of a branch. -/
def takenCell (cells : Entries Cell) (property : String) (taken : Option String) :
    Option Cell :=
  match taken with
  | none => cells.get? property
  | some whenTrue =>
      if flattener.isWithheld later property then cells.get? property
      else some (.rendered
        (conditional id whenTrue (flattener.textOf outer cells property)))

theorem get?_takeCell (cells : Entries Cell) (property : String) (cell : Cell) :
    (flattener.takeCell id later outer cells (property, cell)).get? property =
      flattener.takenCell id later outer cells property cell.text? := by
  cases cell with
  | inert value => rfl
  | rendered text =>
      have taken : flattener.takeCell id later outer cells (property, .rendered text) =
          if flattener.isWithheld later property then cells
          else cells.write flattener.settings.sort property
            (.rendered (conditional id text (flattener.textOf outer cells property))) :=
        rfl
      rw [taken]
      simp only [takenCell, Cell.text?]
      split
      · rfl
      · rw [Entries.get?_write, if_pos rfl]

theorem get?_takeCell_of_ne {cells : Entries Cell} {entry : String × Cell}
    {property : String} (other : entry.1 ≠ property) :
    (flattener.takeCell id later outer cells entry).get? property = cells.get? property := by
  obtain ⟨name, cell⟩ := entry
  cases cell with
  | inert value => rfl
  | rendered text =>
      simp only [takeCell]
      split
      · rfl
      · rw [Entries.get?_write, if_neg other]

theorem get?_takeBranch_of_not_mem {branch cells : Entries Cell} {property : String}
    (absent : property ∉ Entries.keys branch) :
    (flattener.takeBranch id later outer branch cells).get? property =
      cells.get? property := by
  unfold takeBranch
  induction branch generalizing cells with
  | nil => rfl
  | cons entry rest ih =>
      obtain ⟨other, absent⟩ : entry.1 ≠ property ∧ property ∉ Entries.keys rest := by
        simpa [Entries.keys, eq_comm] using absent
      rw [List.foldl_cons, ih absent, get?_takeCell_of_ne _ _ _ _ other]

/-- A property gets a conditional text if the branch has a text for it and the
object around does not withhold it. -/
theorem get?_takeBranch {branch : Entries Cell} (distinct : (Entries.keys branch).Nodup)
    (cells : Entries Cell) (property : String) :
    (flattener.takeBranch id later outer branch cells).get? property =
      flattener.takenCell id later outer cells property
        ((branch.get? property).bind Cell.text?) := by
  induction branch generalizing cells with
  | nil => rfl
  | cons entry rest ih =>
      obtain ⟨name, cell⟩ := entry
      obtain ⟨absent, distinct⟩ := List.nodup_cons.1 distinct
      have step : flattener.takeBranch id later outer ((name, cell) :: rest) cells =
          flattener.takeBranch id later outer rest
            (flattener.takeCell id later outer cells (name, cell)) := rfl
      by_cases wanted : name = property
      · subst wanted
        rw [step, get?_takeBranch_of_not_mem _ _ _ _ absent, get?_takeCell,
          Entries.get?_cons, if_pos rfl, Option.bind_some]
      · have same : (flattener.takeCell id later outer cells (name, cell)).get? property =
            cells.get? property :=
          flattener.get?_takeCell_of_ne id later outer wanted
        rw [step, ih distinct, Entries.get?_cons, if_neg wanted]
        simp only [takenCell, textOf, resolve, same]

/-- Which keys follow a hook matters only for the properties of its branch. -/
theorem takeBranch_congr {later later' : List String} {branch : Entries Cell}
    (same : ∀ property ∈ Entries.keys branch,
      later.contains property = later'.contains property)
    (cells : Entries Cell) :
    flattener.takeBranch id later outer branch cells =
      flattener.takeBranch id later' outer branch cells := by
  unfold takeBranch
  induction branch generalizing cells with
  | nil => rfl
  | cons first rest ih =>
      obtain ⟨property, first⟩ := first
      have step : flattener.takeCell id later outer cells (property, first) =
          flattener.takeCell id later' outer cells (property, first) := by
        cases first with
        | inert value => rfl
        | rendered text => simp only [takeCell, same property List.mem_cons_self]
      rw [List.foldl_cons, List.foldl_cons, step]
      exact ih (fun other mem => same other (List.mem_cons_of_mem _ mem)) _

/-! ## Flattening an object -/

variable {flattener} in
theorem run_of_plain {key : String} (plain : flattener.hooks.contains key = false)
    (value : StyleValue) (rest : Style) (cells : Entries Cell) :
    flattener.run outer ((key, value) :: rest) cells =
      flattener.run outer rest
        (if flattener.settings.sort then cells.moveToEnd key else cells) := by
  rw [run, Compiled.contains_eq_false_iff.1 plain]

variable {flattener} in
theorem run_of_hook {key : String} {hook : CompiledHook}
    (configured : flattener.hooks.hooks.get? key = some hook) (value : StyleValue)
    (rest : Style) (cells : Entries Cell) :
    flattener.run outer ((key, value) :: rest) cells =
      flattener.run outer rest
        (if hook.active then
          flattener.takeBranch hook.id (Entries.keys rest) outer
            (flattener.branchCells (resolve cells outer) value) cells
        else cells) := by
  rw [run, configured]
  cases active : hook.active with
  | true => simp only [active, if_true]
  | false => simp [active]

mutual

theorem nodup_keys_branchCells (outer : String → Option String) (value : StyleValue)
    (wellFormed : value.WellFormed) :
    (Entries.keys (flattener.branchCells outer value)).Nodup := by
  cases value with
  | object style =>
      rw [branchCells]
      exact nodup_keys_run outer style _ (flattener.nodup_keys_ownCells wellFormed.1)
  | _ => simp [branchCells]

/-- Going through a style keeps the keys of the cells distinct. -/
theorem nodup_keys_run (outer : String → Option String) (style : Style)
    (cells : Entries Cell) (distinct : (Entries.keys cells).Nodup) :
    (Entries.keys (flattener.run outer style cells)).Nodup := by
  match style with
  | [] => rwa [run]
  | (key, value) :: rest =>
      rw [run]
      split
      · apply nodup_keys_run
        split
        · exact Entries.nodup_keys_moveToEnd distinct key
        · exact distinct
      · split
        · exact nodup_keys_run outer rest _
            (flattener.nodup_keys_takeBranch _ _ outer distinct)
        · exact nodup_keys_run outer rest cells distinct

end

theorem nodup_keys_flatten {style : Style} (distinct : (Entries.keys style).Nodup) :
    (Entries.keys (flattener.flatten style)).Nodup := by
  rw [flatten, Entries.keys_mapValues, branchCells]
  exact flattener.nodup_keys_run _ style _ (flattener.nodup_keys_ownCells distinct)

/-! ## What holds of every cell -/

/-- Flattening gives only cells of which something holds, if it holds of the cells of
values and does not depend on the hook under which a text stands. -/
structure Persists (holds : String × Cell → Prop) : Prop where
  own : ∀ key value, flattener.hooks.contains key = false →
    holds (key, flattener.cell key value)
  taken : ∀ property id whenTrue whenFalse, holds (property, .rendered whenTrue) →
    holds (property, .rendered (conditional id whenTrue whenFalse))

namespace Persists

variable {flattener} {holds : String × Cell → Prop} (persists : flattener.Persists holds)
include persists

theorem ownCells (style : Style) : ∀ entry ∈ flattener.ownCells style, holds entry := by
  induction style with
  | nil => simp [Flattener.ownCells]
  | cons first rest ih =>
      obtain ⟨key, value⟩ := first
      rw [Flattener.ownCells]
      split
      · exact ih
      · rename_i plain
        intro entry mem
        rcases List.mem_cons.1 mem with rfl | mem
        · exact persists.own key value (by simpa using plain)
        · exact ih entry mem

theorem takeCell {cells : Entries Cell} (cellsHold : ∀ entry ∈ cells, holds entry)
    {first : String × Cell} (firstHolds : holds first) :
    ∀ entry ∈ flattener.takeCell id later outer cells first, holds entry := by
  obtain ⟨property, cell⟩ := first
  cases cell with
  | inert value => exact cellsHold
  | rendered whenTrue =>
      rw [Flattener.takeCell]
      split
      · exact cellsHold
      · intro entry mem
        rcases Entries.mem_of_mem_write mem with rfl | kept
        · exact persists.taken property id whenTrue _ firstHolds
        · exact cellsHold entry kept

theorem takeBranch {branch cells : Entries Cell}
    (branchHolds : ∀ entry ∈ branch, holds entry) (cellsHold : ∀ entry ∈ cells, holds entry) :
    ∀ entry ∈ flattener.takeBranch id later outer branch cells, holds entry := by
  unfold Flattener.takeBranch
  induction branch generalizing cells with
  | nil => exact cellsHold
  | cons first rest ih =>
      apply ih
      · exact fun entry mem => branchHolds entry (List.mem_cons_of_mem _ mem)
      · exact persists.takeCell id later outer cellsHold (branchHolds first List.mem_cons_self)

mutual

theorem branchCells (outer : String → Option String) (value : StyleValue) :
    ∀ entry ∈ flattener.branchCells outer value, holds entry := by
  cases value with
  | object style =>
      rw [Flattener.branchCells]
      exact run outer style (persists.ownCells style)
  | _ => simp [Flattener.branchCells]

theorem run (outer : String → Option String) (style : Style) {cells : Entries Cell}
    (cellsHold : ∀ entry ∈ cells, holds entry) :
    ∀ entry ∈ flattener.run outer style cells, holds entry := by
  match style with
  | [] => rwa [Flattener.run]
  | (key, value) :: rest =>
      rw [Flattener.run]
      split
      · apply run
        split
        · exact fun entry mem => cellsHold entry (Entries.mem_of_mem_moveToEnd mem)
        · exact cellsHold
      · split
        · exact run outer rest
            (persists.takeBranch _ _ outer (branchCells _ value) cellsHold)
        · exact run outer rest cellsHold

end

end Persists

theorem persists_plain :
    flattener.Persists fun entry => flattener.hooks.contains entry.1 = false where
  own _ _ plain := plain
  taken _ _ _ _ plain := plain

theorem contains_of_mem_branchCells {value : StyleValue} {key : String}
    (mem : key ∈ Entries.keys (flattener.branchCells outer value)) :
    flattener.hooks.contains key = false := by
  obtain ⟨entry, entryMem, rfl⟩ := List.mem_map.1 mem
  exact flattener.persists_plain.branchCells outer value entry entryMem

theorem contains_of_mem_flatten {style : Style} {key : String}
    (mem : key ∈ Entries.keys (flattener.flatten style)) :
    flattener.hooks.contains key = false := by
  rw [flatten, Entries.keys_mapValues] at mem
  exact flattener.contains_of_mem_branchCells _ mem

/-- A flattened style has no value for a hook. -/
theorem get?_flatten_of_hook {key : String} (isHook : flattener.hooks.contains key = true)
    (style : Style) : (flattener.flatten style).get? key = none := by
  rw [Entries.get?_eq_none_iff]
  intro mem
  rw [flattener.contains_of_mem_flatten mem] at isHook
  cases isHook

end Flattener

end ConditionalStyles
