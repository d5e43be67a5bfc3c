import ConditionalStyles.Proofs.Levels
import ConditionalStyles.Proofs.SingleProperty

/-!
# Properties before branches

Where the order of the source does not decide, it makes no difference whether a
property stands before a branch or after it.  Where it does decide, a branch gives way
to the properties after it, so that the two modes agree on a style whose properties
stand before its branches at every level.
-/

namespace ConditionalStyles

namespace Style

def properties (hooks : Compiled) (style : Style) : Style :=
  style.filter fun entry => !hooks.contains entry.1

def branches (hooks : Compiled) (style : Style) : Style :=
  style.filter fun entry => hooks.contains entry.1

def propertiesFirst (hooks : Compiled) (style : Style) : Style :=
  properties hooks style ++ branches hooks style

/-- A style with its properties before its branches at every level. -/
def hoist (hooks : Compiled) (style : Style) : Style :=
  changeLevels hooks (propertiesFirst hooks) style

section

variable (hooks : Compiled) (key : String) (value : StyleValue) (rest style : Style)

theorem properties_cons :
    properties hooks ((key, value) :: rest) =
      if hooks.contains key then properties hooks rest
      else (key, value) :: properties hooks rest := by
  cases hook : hooks.contains key <;> simp [properties, hook]

theorem branches_cons :
    branches hooks ((key, value) :: rest) =
      if hooks.contains key then (key, value) :: branches hooks rest
      else branches hooks rest := by
  cases hook : hooks.contains key <;> simp [branches, hook]

theorem branches_propertiesFirst :
    branches hooks (propertiesFirst hooks style) = branches hooks style := by
  simp [branches, propertiesFirst, properties, List.filter_append, List.filter_filter]

theorem contains_of_mem_branches {hooks key style}
    (mem : key ∈ Entries.keys (branches hooks style)) : hooks.contains key = true := by
  obtain ⟨entry, entryMem, rfl⟩ := List.mem_map.1 mem
  exact (List.mem_filter.1 entryMem).2

theorem propertiesFirst_perm : (propertiesFirst hooks style).Perm style := by
  have parts := List.filter_append_perm (fun entry => !hooks.contains entry.1) style
  simpa only [propertiesFirst, properties, branches, Bool.not_not] using parts

theorem selects_propertiesFirst : Selects (propertiesFirst hooks) where
  subset style := (propertiesFirst_perm hooks style).subset
  nodup style distinct :=
    ((propertiesFirst_perm hooks style).map Prod.fst).nodup_iff.2 distinct

end

end Style

namespace Flattener

open Style

variable (flattener : Flattener)

def withSort (sort : Bool) : Flattener :=
  { flattener with settings := { flattener.settings with sort } }

/-! ## Where the order does not decide -/

variable {flattener}

/-- The properties after a branch make no difference. -/
theorem takeBranch_unsorted (unsorted : flattener.settings.sort = false) (id : String)
    (later later' : List String) (outer : String → Option String)
    (branch cells : Entries Cell) :
    flattener.takeBranch id later outer branch cells =
      flattener.takeBranch id later' outer branch cells := by
  have step : flattener.takeCell id later outer = flattener.takeCell id later' outer := by
    funext cells entry
    obtain ⟨property, cell⟩ := entry
    cases cell with
    | inert value => rfl
    | rendered text => simp only [takeCell, unsorted, Bool.false_and]
  rw [takeBranch, takeBranch, step]

theorem run_branches (unsorted : flattener.settings.sort = false)
    (outer : String → Option String) (style : Style) (cells : Entries Cell) :
    flattener.run outer (branches flattener.hooks style) cells =
      flattener.run outer style cells := by
  induction style generalizing cells with
  | nil => rfl
  | cons entry rest ih =>
      obtain ⟨key, value⟩ := entry
      rw [branches_cons]
      cases configured : flattener.hooks.hooks.get? key with
      | none =>
          have plain := Compiled.contains_eq_false_iff.2 configured
          rw [if_neg (by simp [plain]), ih, run_of_plain outer plain,
            if_neg (by simp [unsorted])]
      | some hook =>
          rw [if_pos (Compiled.contains_of_get? configured), run_of_hook outer configured,
            run_of_hook outer configured, ih,
            takeBranch_unsorted unsorted _ _ (Entries.keys rest)]

theorem ownCells_properties (style : Style) :
    flattener.ownCells (properties flattener.hooks style) = flattener.ownCells style := by
  induction style with
  | nil => rfl
  | cons entry rest ih =>
      obtain ⟨key, value⟩ := entry
      rw [properties_cons]
      cases hook : flattener.hooks.contains key with
      | true => rw [if_pos rfl, ih, ownCells, if_pos hook]
      | false => simp only [ownCells, hook, ih, Bool.false_eq_true, if_false]

theorem ownCells_propertiesFirst (style : Style) :
    flattener.ownCells (propertiesFirst flattener.hooks style) =
      flattener.ownCells style := by
  have none : flattener.ownCells (branches flattener.hooks style) = [] :=
    flattener.ownCells_of_hooks fun _ => contains_of_mem_branches
  rw [propertiesFirst, ownCells_append, none, List.append_nil, ownCells_properties]

/-- Properties may stand before the branches of a level as well as after them. -/
theorem unseen_propertiesFirst (unsorted : flattener.settings.sort = false) :
    flattener.Unseen (propertiesFirst flattener.hooks) := by
  intro outer style
  rw [branchCells, branchCells, ownCells_propertiesFirst, ← run_branches unsorted,
    branches_propertiesFirst, run_branches unsorted]

/-! ## Where the order decides -/

variable (flattener)

theorem cellThrough_properties_append (property : String) (outside : Option String)
    (style second : Style) (cell : Option Cell) :
    flattener.cellThrough property outside
        (properties flattener.hooks style ++ second) cell =
      flattener.cellThrough property outside second cell := by
  induction style with
  | nil => rfl
  | cons entry rest ih =>
      obtain ⟨key, value⟩ := entry
      rw [properties_cons]
      cases hook : flattener.hooks.contains key with
      | true => exact ih
      | false =>
          rw [if_neg (by simp), List.cons_append, cellThrough_of_plain hook]
          exact ih

/-- Nothing is withheld from a property by the branches after a branch. -/
theorem isWithheld_branches {property : String}
    (plain : flattener.hooks.contains property = false) (style : Style) :
    flattener.isWithheld (Entries.keys (branches flattener.hooks style)) property =
      false := by
  have absent : property ∉ Entries.keys (branches flattener.hooks style) := by
    intro mem
    rw [contains_of_mem_branches mem] at plain
    cases plain
  simp [isWithheld, absent]

mutual

/-- With properties before branches at every level, a property gets the same cell in
either mode. -/
theorem cellIn_hoisted {property : String}
    (plain : flattener.hooks.contains property = false) (sort sort' : Bool)
    (outside : Option String) (value : StyleValue) :
    (flattener.withSort sort).cellIn property outside
        (changeIn flattener.hooks (propertiesFirst flattener.hooks) value) =
      (flattener.withSort sort').cellIn property outside
        (changeIn flattener.hooks (propertiesFirst flattener.hooks) value) := by
  cases value with
  | object style =>
      have through (sort : Bool) (style : Style) (cell : Option Cell) :
          (flattener.withSort sort).cellThrough property outside
              (propertiesFirst flattener.hooks style) cell =
            (flattener.withSort sort).cellThrough property outside
              (branches flattener.hooks style) cell :=
        cellThrough_properties_append (flattener.withSort sort) property outside style _ cell
      rw [changeIn, cellIn, cellIn, through, through, get?_ownCells, get?_ownCells]
      exact cellThrough_hoisted plain sort sort' outside style _
  | _ => rfl

theorem cellThrough_hoisted {property : String}
    (plain : flattener.hooks.contains property = false) (sort sort' : Bool)
    (outside : Option String) (style : Style) (cell : Option Cell) :
    (flattener.withSort sort).cellThrough property outside
        (branches flattener.hooks
          (changeBranches flattener.hooks (propertiesFirst flattener.hooks) style)) cell =
      (flattener.withSort sort').cellThrough property outside
        (branches flattener.hooks
          (changeBranches flattener.hooks (propertiesFirst flattener.hooks) style)) cell := by
  match style with
  | [] => rfl
  | (key, value) :: rest =>
      rw [changeBranches, branches_cons]
      cases configured : flattener.hooks.hooks.get? key with
      | none =>
          rw [Compiled.contains_eq_false_iff.2 configured]
          exact cellThrough_hoisted plain sort sort' outside rest cell
      | some hook =>
          have kept (sort : Bool) (style : Style) :
              (flattener.withSort sort).isWithheld
                (Entries.keys (branches flattener.hooks style)) property = false :=
            isWithheld_branches (flattener.withSort sort) plain style
          have configured' (sort : Bool) :
              (flattener.withSort sort).hooks.hooks.get? key = some hook := configured
          rw [if_pos (Compiled.contains_of_get? configured),
            if_pos (Compiled.contains_of_get? configured),
            cellThrough_of_hook (configured' sort), cellThrough_of_hook (configured' sort'),
            kept, kept, cellIn_hoisted plain sort sort' _ value]
          exact cellThrough_hoisted plain sort sort' outside rest _

end

/-- The two modes agree up to the order of properties and branches.  With the properties
before the branches at every level, flattening in the order of the source gives every
property the value, and no other property, that flattening in the other mode gives for
the style as it is.  In that other mode nothing changes if properties are moved in
front of branches, not even the order of the result. -/
theorem flatten_hoist (flattener : Flattener) {style : Style}
    (wellFormed : style.WellFormed) :
    (∀ property,
      ((flattener.withSort false).flatten style).get? property =
        ((flattener.withSort true).flatten (hoist flattener.hooks style)).get? property) ∧
      ((flattener.withSort false).flatten style).Perm
        ((flattener.withSort true).flatten (hoist flattener.hooks style)) ∧
      (flattener.withSort false).flatten style =
        (flattener.withSort false).flatten (hoist flattener.hooks style) := by
  have hoisted : (hoist flattener.hooks style).WellFormed :=
    wellFormed_changeLevels (selects_propertiesFirst _) wellFormed
  have unseen : (flattener.withSort false).Unseen (propertiesFirst flattener.hooks) :=
    unseen_propertiesFirst rfl
  have unsorted : (flattener.withSort false).flatten (hoist flattener.hooks style) =
      (flattener.withSort false).flatten style := unseen.flatten style
  have sameValues (property : String) :
      ((flattener.withSort false).flatten style).get? property =
        ((flattener.withSort true).flatten (hoist flattener.hooks style)).get? property := by
    cases plain : flattener.hooks.contains property with
    | true =>
        have none (sort : Bool) (style : Style) :
            ((flattener.withSort sort).flatten style).get? property = none :=
          get?_flatten_of_hook (flattener.withSort sort) plain style
        rw [none, none]
    | false =>
        rw [← unsorted, get?_flatten _ hoisted, get?_flatten _ hoisted, hoist,
          ← changeIn_object, cellIn_hoisted flattener plain false true]
  refine ⟨sameValues, ?_, unsorted.symm⟩
  exact Entries.perm_of_get?_eq (nodup_keys_flatten _ wellFormed.1)
    (nodup_keys_flatten _ hoisted.1) sameValues

def darkAndWide : Flattener where
  hooks := Compiled.ofConfiguration Identifier.readable
    (Configuration.ofList [("dark", .leaf ".dark &"), ("wide", .leaf "@media (width > 40em)")])
  settings := { fallback := .revertLayer }
  renderer := Renderer.pixels

/-- A style with properties behind branches at two levels, one of them without text. -/
def scattered : Style :=
  [("dark", .object
      [("wide", .object [("color", .text "white"), ("border", .text "none")]),
        ("color", .text "silver"), ("margin", .boolean true)]),
    ("color", .text "black"), ("margin", .number (.ofInt 4)), ("border", .null)]

/-- The scattered style in both modes. -/
theorem flatten_hoist_scattered :
    scattered.WellFormed ∧
      (∀ property,
        ((darkAndWide.withSort false).flatten scattered).get? property =
          ((darkAndWide.withSort true).flatten
            (hoist darkAndWide.hooks scattered)).get? property) ∧
      (darkAndWide.withSort false).flatten scattered =
        (darkAndWide.withSort false).flatten (hoist darkAndWide.hooks scattered) := by
  have wellFormed : scattered.WellFormed := by
    simp [scattered, Style.WellFormed, StyleValue.WellFormed, StyleValue.WellFormedMembers]
  obtain ⟨sameValues, -, unsorted⟩ := flatten_hoist darkAndWide wellFormed
  exact ⟨wellFormed, sameValues, unsorted⟩

end Flattener

end ConditionalStyles
