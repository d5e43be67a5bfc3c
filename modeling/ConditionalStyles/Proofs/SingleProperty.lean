import ConditionalStyles.Proofs.Branches

/-!
# One property at a time

The cells of a style are written and moved together, but what becomes of a property
depends on nothing but its own value, the branches in their order, and the text that
applies to it outside.  `cellIn` follows a single property through a style in this way,
and finds the cell that flattening gives it.
-/

namespace ConditionalStyles

namespace Flattener

variable (flattener : Flattener)

/-! ## The cell of a property -/

/-- The text that applies to a property with a given cell, if `outside` applies to it
in the objects around. -/
def textAt (outside : Option String) (cell : Option Cell) : Option String :=
  (cell.bind Cell.text?).or outside

def withBranchText (id : String) (outside : Option String) (cell : Option Cell) :
    Option String → Option Cell
  | none => cell
  | some whenTrue =>
      some (.rendered (conditional id whenTrue
        ((textAt outside cell).getD flattener.settings.fallback.keyword)))

mutual

/-- The cell that a property gets in the object under a hook. -/
def cellIn (property : String) (outside : Option String) : StyleValue → Option Cell
  | .object style =>
      cellThrough property outside style ((flattener.ownCells style).get? property)
  | _ => none

/-- The cell that a property gets from the branches of a style, given its cell before
them. -/
def cellThrough (property : String) (outside : Option String) :
    Style → Option Cell → Option Cell
  | [], cell => cell
  | (key, value) :: rest, cell =>
      match flattener.hooks.hooks.get? key with
      | none => cellThrough property outside rest cell
      | some hook =>
          if hook.active && !flattener.isWithheld (Entries.keys rest) property then
            let inside := cellIn property (textAt outside cell) value
            cellThrough property outside rest
              (flattener.withBranchText hook.id outside cell (inside.bind Cell.text?))
          else cellThrough property outside rest cell

end

/-! ## Flattening finds this cell -/

variable (outer : String → Option String)

theorem resolve_eq_textAt (cells : Entries Cell) (property : String) :
    resolve cells outer property = textAt (outer property) (cells.get? property) := by
  unfold resolve textAt
  cases (cells.get? property).bind Cell.text? <;> rfl

theorem takenCell_eq_withBranchText (id : String) (later : List String)
    (cells : Entries Cell) (property : String) (taken : Option String) :
    flattener.takenCell id later outer cells property taken =
      if flattener.isWithheld later property then cells.get? property
      else flattener.withBranchText id (outer property) (cells.get? property) taken := by
  unfold takenCell withBranchText textOf
  cases taken with
  | none => exact (ite_self _).symm
  | some whenTrue => rw [resolve_eq_textAt]

variable {flattener} in
theorem cellThrough_of_plain {key : String} (plain : flattener.hooks.contains key = false)
    (property : String) (outside : Option String) (value : StyleValue) (rest : Style)
    (cell : Option Cell) :
    flattener.cellThrough property outside ((key, value) :: rest) cell =
      flattener.cellThrough property outside rest cell := by
  rw [cellThrough, Compiled.contains_eq_false_iff.1 plain]

variable {flattener} in
theorem cellThrough_of_hook {key : String} {hook : CompiledHook}
    (configured : flattener.hooks.hooks.get? key = some hook)
    (property : String) (outside : Option String) (value : StyleValue) (rest : Style)
    (cell : Option Cell) :
    flattener.cellThrough property outside ((key, value) :: rest) cell =
      flattener.cellThrough property outside rest
        (if hook.active && !flattener.isWithheld (Entries.keys rest) property then
          flattener.withBranchText hook.id outside cell
            ((flattener.cellIn property (textAt outside cell) value).bind Cell.text?)
        else cell) := by
  rw [cellThrough, configured]
  dsimp only
  split <;> rfl

mutual

theorem get?_branchCells (outer : String → Option String) (value : StyleValue)
    (wellFormed : value.WellFormed) (property : String) :
    (flattener.branchCells outer value).get? property =
      flattener.cellIn property (outer property) value := by
  cases value with
  | object style =>
      rw [branchCells, cellIn]
      exact get?_run outer style wellFormed.2 _ property
  | _ => rw [branchCells, cellIn, Entries.get?_nil] <;> simp

/-- Going through a style changes every property by itself. -/
theorem get?_run (outer : String → Option String) (style : Style)
    (wellFormed : StyleValue.WellFormedMembers style) (cells : Entries Cell)
    (property : String) :
    (flattener.run outer style cells).get? property =
      flattener.cellThrough property (outer property) style (cells.get? property) := by
  match style with
  | [] => rw [run, cellThrough]
  | (key, value) :: rest =>
      obtain ⟨valueWellFormed, restWellFormed⟩ := wellFormed
      cases configured : flattener.hooks.hooks.get? key with
      | none =>
          have plain := Compiled.contains_eq_false_iff.2 configured
          rw [run_of_plain outer plain, cellThrough_of_plain plain,
            get?_run outer rest restWellFormed]
          congr 1
          split
          · exact Entries.get?_moveToEnd cells key property
          · rfl
      | some hook =>
          rw [run_of_hook outer configured, cellThrough_of_hook configured,
            get?_run outer rest restWellFormed]
          congr 1
          cases active : hook.active with
          | false => rfl
          | true =>
              have distinct : (Entries.keys
                  (flattener.branchCells (resolve cells outer) value)).Nodup :=
                flattener.nodup_keys_branchCells _ value valueWellFormed
              rw [if_pos rfl, get?_takeBranch _ _ _ _ distinct,
                get?_branchCells _ value valueWellFormed, resolve_eq_textAt,
                takenCell_eq_withBranchText]
              cases flattener.isWithheld (Entries.keys rest) property <;> rfl

end

/-- Flattening gives every property the value that it gets by itself. -/
theorem get?_flatten {style : Style} (wellFormed : style.WellFormed) (property : String) :
    (flattener.flatten style).get? property =
      (flattener.cellIn property none (.object style)).map Cell.value := by
  rw [flatten, Entries.get?_mapValues, get?_branchCells _ _ _ wellFormed]

end Flattener

end ConditionalStyles
