import ConditionalStyles.Compiled
import ConditionalStyles.Settings.Basic
import ConditionalStyles.Style.Merge
import ConditionalStyles.Style.Rendering

/-!
# Flattening styles

A branch is the object under a hook name.  Flattening replaces every branch by
conditional texts: a property that the branch sets to `b`, and that would be
`o` without it, becomes

    var(--id-1, b) var(--id-0, o)

At any time one of the two references shows its fallback and the other is
blank, so the property is `b` while the hook is true and `o` otherwise.

The value `o` outside the branch is the one that the enclosing object has by
then, else that of the objects around it, else the fallback keyword.
-/

namespace ConditionalStyles

/-- A property during flattening. -/
inductive Cell where
  | rendered (text : String)
  /-- A property whose value has no CSS text. -/
  | inert (value : StyleValue)

def Cell.value : Cell → StyleValue
  | .rendered text => .text text
  | .inert value => value

def Cell.text? : Cell → Option String
  | .rendered text => some text
  | .inert _ => none

/-- What flattening depends on besides the style. -/
structure Flattener where
  hooks : Compiled
  settings : Settings
  renderer : Renderer

namespace Flattener

/-- The text that is `whenTrue` while a hook is true and `whenFalse` otherwise. -/
def conditional (id whenTrue whenFalse : String) : String :=
  "var(" ++ Slot.whenTrue.property id ++ ", " ++ whenTrue ++ ") var(" ++
    Slot.whenFalse.property id ++ ", " ++ whenFalse ++ ")"

def cell (flattener : Flattener) (property : String) (value : StyleValue) : Cell :=
  match flattener.renderer.keepReferences property value with
  | some text => .rendered text
  | none => .inert value

/-- The cells of the properties of a style, hooks left out. -/
def ownCells (flattener : Flattener) : Style → Entries Cell
  | [] => []
  | (key, value) :: rest =>
      if flattener.hooks.contains key then flattener.ownCells rest
      else (key, flattener.cell key value) :: flattener.ownCells rest

/-- The text of a property in the given cells, else in the objects around. -/
def resolve (cells : Entries Cell) (outer : String → Option String)
    (property : String) : Option String :=
  match (cells.get? property).bind Cell.text? with
  | some text => some text
  | none => outer property

/-- Take one cell of a branch into the cells of the object around it.  If the
order of the source decides, a property that is set after the branch is not
taken. -/
def takeCell (flattener : Flattener) (id : String) (later : List String)
    (outer : String → Option String) (cells : Entries Cell)
    (entry : String × Cell) : Entries Cell :=
  match entry with
  | (_, .inert _) => cells
  | (property, .rendered whenTrue) =>
      if flattener.settings.sort && later.contains property then cells
      else
        let whenFalse :=
          (resolve cells outer property).getD flattener.settings.fallback.keyword
        cells.write flattener.settings.sort property
          (.rendered (conditional id whenTrue whenFalse))

def takeBranch (flattener : Flattener) (id : String) (later : List String)
    (outer : String → Option String) (branch cells : Entries Cell) : Entries Cell :=
  branch.foldl (flattener.takeCell id later outer) cells

mutual

/-- The cells of a branch, given the texts that apply outside it; none if the
value of the hook is not an object. -/
def branchCells (flattener : Flattener) (outer : String → Option String) :
    StyleValue → Entries Cell
  | .object style => flattener.run outer style (flattener.ownCells style)
  | _ => []

/-- Go through the entries of a style in order, given the cells by then. -/
def run (flattener : Flattener) (outer : String → Option String) :
    Style → Entries Cell → Entries Cell
  | [], cells => cells
  | (key, value) :: rest, cells =>
      match flattener.hooks.hooks.get? key with
      | none =>
          flattener.run outer rest
            (if flattener.settings.sort then cells.moveToEnd key else cells)
      | some hook =>
          if hook.active then
            let branch := flattener.branchCells (resolve cells outer) value
            flattener.run outer rest
              (flattener.takeBranch hook.id (Entries.keys rest) outer branch cells)
          else flattener.run outer rest cells

end

/-- The properties of a style, without hooks. -/
def flatten (flattener : Flattener) (style : Style) : Style :=
  Entries.mapValues Cell.value
    (flattener.branchCells (fun _ => none) (.object style))

def flattenAll (flattener : Flattener) (fragments : List Style) : Style :=
  flattener.flatten (Style.merge flattener.settings.sort fragments)

end Flattener

end ConditionalStyles
