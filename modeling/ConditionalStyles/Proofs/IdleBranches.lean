import ConditionalStyles.Proofs.Levels

/-!
# Branches that cannot apply

A branch is idle if its hook has no toggle pair, or its value is not an object, or an
object without entries.  Idle branches are passed over, but their keys stand among the
keys after an earlier branch, which may have to give way to a property there.  Since a
property is never a hook, a style flattens as it does without its idle branches; and a
branch that only holds idle ones is idle as well once they are left out.
-/

namespace ConditionalStyles

namespace StyleValue

def hasEntries : StyleValue → Bool
  | .object (_ :: _) => true
  | _ => false

end StyleValue

namespace Style

/-- Whether an entry of a style is a branch that cannot apply. -/
def isIdle (hooks : Compiled) (entry : String × StyleValue) : Bool :=
  hooks.contains entry.1 && !(hooks.isActive entry.1 && entry.2.hasEntries)

def dropIdle (hooks : Compiled) (style : Style) : Style :=
  style.filter fun entry => !isIdle hooks entry

/-- A style without idle branches at every level, those left out first that are deeper
inside. -/
def dropIdleLevels (hooks : Compiled) (style : Style) : Style :=
  changeLevels hooks (dropIdle hooks) style

theorem dropIdle_cons (hooks : Compiled) (entry : String × StyleValue) (rest : Style) :
    dropIdle hooks (entry :: rest) =
      if isIdle hooks entry then dropIdle hooks rest else entry :: dropIdle hooks rest := by
  cases idle : isIdle hooks entry <;> simp [dropIdle, idle]

theorem mem_keys_dropIdle {hooks : Compiled} {property : String}
    (plain : hooks.contains property = false) (style : Style) :
    property ∈ Entries.keys (dropIdle hooks style) ↔ property ∈ Entries.keys style := by
  induction style with
  | nil => rfl
  | cons entry rest ih =>
      rw [dropIdle_cons, Entries.keys_cons, List.mem_cons]
      split
      · rename_i idle
        have other : property ≠ entry.1 := by
          rintro rfl
          simp [isIdle, plain] at idle
        rw [ih, or_iff_right other]
      · rw [Entries.keys_cons, List.mem_cons, ih]

end Style

namespace Flattener

open Style

variable {flattener : Flattener}

/-! ## One level -/

theorem ownCells_dropIdle (style : Style) :
    flattener.ownCells (dropIdle flattener.hooks style) = flattener.ownCells style := by
  induction style with
  | nil => rfl
  | cons entry rest ih =>
      obtain ⟨key, value⟩ := entry
      rw [dropIdle_cons]
      cases hook : flattener.hooks.contains key with
      | false => simp [isIdle, hook, ownCells, ih]
      | true =>
          rw [ownCells, if_pos hook]
          split
          · exact ih
          · rw [ownCells, if_pos hook, ih]

/-- A value without entries has no cells to take. -/
theorem branchCells_eq_nil (outer : String → Option String) {value : StyleValue}
    (empty : value.hasEntries = false) : flattener.branchCells outer value = [] := by
  match value with
  | .object [] => rw [branchCells, ownCells, run]
  | .object (_ :: _) => cases empty
  | .null | .boolean _ | .number _ | .text _ | .list _ => rfl

theorem run_of_idle (outer : String → Option String) {key : String} {value : StyleValue}
    (idle : isIdle flattener.hooks (key, value) = true) (rest : Style)
    (cells : Entries Cell) :
    flattener.run outer ((key, value) :: rest) cells = flattener.run outer rest cells := by
  cases configured : flattener.hooks.hooks.get? key with
  | none => simp [isIdle, Compiled.contains_eq_false_iff.2 configured] at idle
  | some hook =>
      rw [run_of_hook outer configured]
      cases active : hook.active with
      | false => rfl
      | true =>
          have empty : value.hasEntries = false := by
            simpa [isIdle, Compiled.contains_of_get? configured, Compiled.isActive,
              configured, active] using idle
          rw [branchCells_eq_nil _ empty]
          rfl

theorem run_dropIdle (outer : String → Option String) (style : Style)
    (cells : Entries Cell) :
    flattener.run outer (dropIdle flattener.hooks style) cells =
      flattener.run outer style cells := by
  induction style generalizing cells with
  | nil => rfl
  | cons entry rest ih =>
      obtain ⟨key, value⟩ := entry
      rw [dropIdle_cons]
      split
      · rename_i idle
        rw [run_of_idle outer idle, ih]
      · cases configured : flattener.hooks.hooks.get? key with
        | none =>
            have plain := Compiled.contains_eq_false_iff.2 configured
            rw [run_of_plain outer plain, run_of_plain outer plain, ih]
        | some hook =>
            -- What is left out after the hook is no property of its branch.
            have unchanged : flattener.takeBranch hook.id
                  (Entries.keys (dropIdle flattener.hooks rest)) outer
                  (flattener.branchCells (resolve cells outer) value) cells =
                flattener.takeBranch hook.id (Entries.keys rest) outer
                  (flattener.branchCells (resolve cells outer) value) cells := by
              refine flattener.takeBranch_congr _ _ (fun property mem => ?_) _
              have plain := flattener.contains_of_mem_branchCells _ mem
              rw [Bool.eq_iff_iff, List.contains_iff_mem, List.contains_iff_mem,
                mem_keys_dropIdle plain]
            rw [run_of_hook outer configured, run_of_hook outer configured, unchanged, ih]

theorem unseen_dropIdle : flattener.Unseen (dropIdle flattener.hooks) := by
  intro outer style
  rw [branchCells, branchCells, ownCells_dropIdle, run_dropIdle]

/-! ## Every level -/

/-- Branches that cannot apply are as if absent.  Leaving out, at every level and from
the inside, each hook without a toggle pair and each one whose value is not an object
or has no entries left does not change the flattened style, nor its order. -/
theorem flatten_dropIdleLevels (flattener : Flattener) (style : Style) :
    flattener.flatten (dropIdleLevels flattener.hooks style) = flattener.flatten style :=
  unseen_dropIdle.flatten style

-- The outer branch has no entries once the inner one, whose hook has no pair, is left out.
example :
    dropIdleLevels (Compiled.ofConfiguration (Identifier.named id)
        (Configuration.ofList [("hover", .leaf ":hover"), ("never", .leaf "hover")]))
      [("hover", .object [("never", .object [("color", .text "red")])]),
        ("color", .text "black")] = [("color", .text "black")] := by
  rfl

end Flattener

end ConditionalStyles
