import ConditionalStyles.Proofs.Branches

/-!
# Changes at every level

The levels of a style are the style itself and the objects under hooks at any depth.
A change can be made at each of them, first in the branches of a level and then in the
level itself.  A change that makes no difference to the flattening of one level makes
none where it is made at all of them.
-/

namespace ConditionalStyles

namespace StyleValue

theorem wellFormedMembers_iff {style : Style} :
    WellFormedMembers style ↔ ∀ entry ∈ style, entry.2.WellFormed := by
  induction style with
  | nil => simp [WellFormedMembers]
  | cons entry rest ih =>
      obtain ⟨key, value⟩ := entry
      rw [WellFormedMembers, ih, List.forall_mem_cons]

end StyleValue

namespace Style

variable (hooks : Compiled) (change : Style → Style)

mutual

/-- The value of a hook with a change made at every level of the object that it is.
Other values stay. -/
def changeIn : StyleValue → StyleValue
  | .object style => .object (change (changeBranches style))
  | value => value

def changeBranches : Style → Style
  | [] => []
  | (key, value) :: rest =>
      (key, if hooks.contains key then changeIn value else value) :: changeBranches rest

end

/-- A style with a change made at every level. -/
def changeLevels (style : Style) : Style :=
  change (changeBranches hooks change style)

theorem changeIn_object (style : Style) :
    changeIn hooks change (.object style) = .object (changeLevels hooks change style) := by
  rw [changeIn, changeLevels]

/-! ## What stays -/

@[simp] theorem keys_changeBranches (style : Style) :
    Entries.keys (changeBranches hooks change style) = Entries.keys style := by
  induction style with
  | nil => rfl
  | cons entry rest ih =>
      obtain ⟨key, value⟩ := entry
      rw [changeBranches, Entries.keys_cons, Entries.keys_cons, ih]

theorem get?_changeBranches {property : String}
    (plain : hooks.contains property = false) (style : Style) :
    Entries.get? (changeBranches hooks change style) property =
      Entries.get? style property := by
  induction style with
  | nil => rfl
  | cons entry rest ih =>
      obtain ⟨key, value⟩ := entry
      rw [changeBranches, Entries.get?_cons, Entries.get?_cons, ih]
      by_cases wanted : key = property
      · subst wanted
        simp [plain]
      · rw [if_neg wanted, if_neg wanted]

/-- A change that adds no entry and lists no key twice. -/
structure Selects (change : Style → Style) : Prop where
  subset : ∀ style, change style ⊆ style
  nodup : ∀ style, (Entries.keys style).Nodup → (Entries.keys (change style)).Nodup

variable {hooks change}

mutual

theorem wellFormed_changeIn (selects : Selects change) (value : StyleValue)
    (wellFormed : value.WellFormed) : (changeIn hooks change value).WellFormed := by
  cases value with
  | object style =>
      obtain ⟨distinct, members⟩ := wellFormed
      rw [changeIn, StyleValue.WellFormed]
      constructor
      · apply selects.nodup
        rwa [keys_changeBranches]
      · rw [StyleValue.wellFormedMembers_iff]
        intro entry mem
        exact StyleValue.wellFormedMembers_iff.1
          (wellFormed_changeBranches selects style members) entry (selects.subset _ mem)
  | _ => exact wellFormed

theorem wellFormed_changeBranches (selects : Selects change) (style : Style)
    (wellFormed : StyleValue.WellFormedMembers style) :
    StyleValue.WellFormedMembers (changeBranches hooks change style) := by
  match style with
  | [] => exact wellFormed
  | (key, value) :: rest =>
      obtain ⟨valueWellFormed, restWellFormed⟩ := wellFormed
      rw [changeBranches, StyleValue.WellFormedMembers]
      refine ⟨?_, wellFormed_changeBranches selects rest restWellFormed⟩
      split
      · exact wellFormed_changeIn selects value valueWellFormed
      · exact valueWellFormed

end

theorem wellFormed_changeLevels (selects : Selects change) {style : Style}
    (wellFormed : style.WellFormed) : (changeLevels hooks change style).WellFormed := by
  rw [WellFormed, ← changeIn_object]
  exact wellFormed_changeIn selects (.object style) wellFormed

end Style

namespace Flattener

open Style

variable {flattener : Flattener} {change : Style → Style}

/-- Changes in branches leave the cells of the properties themselves. -/
theorem ownCells_changeBranches (style : Style) :
    flattener.ownCells (changeBranches flattener.hooks change style) =
      flattener.ownCells style := by
  induction style with
  | nil => rfl
  | cons entry rest ih =>
      obtain ⟨key, value⟩ := entry
      rw [changeBranches, ownCells, ownCells, ih]
      cases hook : flattener.hooks.contains key <;> rfl

/-- A change that makes no difference to the flattening of one level. -/
def Unseen (flattener : Flattener) (change : Style → Style) : Prop :=
  ∀ outer style, flattener.branchCells outer (.object (change style)) =
    flattener.branchCells outer (.object style)

mutual

theorem Unseen.branchCells (unseen : flattener.Unseen change)
    (outer : String → Option String) (value : StyleValue) :
    flattener.branchCells outer (changeIn flattener.hooks change value) =
      flattener.branchCells outer value := by
  cases value with
  | object style =>
      rw [changeIn, unseen, Flattener.branchCells, Flattener.branchCells,
        ownCells_changeBranches, unseen.run outer style]
  | _ => rfl

theorem Unseen.run (unseen : flattener.Unseen change) (outer : String → Option String)
    (style : Style) (cells : Entries Cell) :
    flattener.run outer (changeBranches flattener.hooks change style) cells =
      flattener.run outer style cells := by
  match style with
  | [] => rw [changeBranches]
  | (key, value) :: rest =>
      rw [changeBranches]
      cases configured : flattener.hooks.hooks.get? key with
      | none =>
          have plain := Compiled.contains_eq_false_iff.2 configured
          rw [run_of_plain outer plain, run_of_plain outer plain, unseen.run outer rest]
      | some hook =>
          have isHook := Compiled.contains_of_get? configured
          rw [run_of_hook outer configured, run_of_hook outer configured, if_pos isHook,
            keys_changeBranches, unseen.branchCells _ value, unseen.run outer rest]

end

/-- A change that makes no difference at one level makes none at all levels. -/
theorem Unseen.flatten (unseen : flattener.Unseen change) (style : Style) :
    flattener.flatten (changeLevels flattener.hooks change style) =
      flattener.flatten style := by
  rw [Flattener.flatten, Flattener.flatten, ← changeIn_object, unseen.branchCells]

end Flattener

end ConditionalStyles
