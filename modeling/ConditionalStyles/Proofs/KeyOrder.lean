import ConditionalStyles.Proofs.SingleProperty
import ConditionalStyles.Proofs.WrittenKeys

/-!
# The order of a flattened style

The keys of a flattened style and their order follow from the keys of the style, from
which hooks have a toggle pair, and from which values have a text.  A branch contributes
the properties that it has a text for, in its own order: they are listed behind the
properties of the object around it, or at their place in the source if that decides.

While a style is gone through in the order of the source, the properties that are still
to come stand in front of the ones that are in place.  That is the invariant of the run.
-/

namespace ConditionalStyles

namespace Flattener

variable (flattener : Flattener)

/-! ## The properties that a branch contributes -/

def rendersOwn (property : String) (style : Style) : Bool :=
  match Entries.get? style property with
  | some value => (flattener.renderer.keepReferences property value).isSome
  | none => false

mutual

/-- Whether a branch has a text for a property, its own or one of a branch inside. -/
def renders (property : String) : StyleValue → Bool
  | .object style => flattener.rendersOwn property style || branchesRender property style
  | _ => false

/-- Whether an active hook of a style has a text for a property that it need not give
way to. -/
def branchesRender (property : String) : Style → Bool
  | [] => false
  | (key, value) :: rest =>
      (match flattener.hooks.hooks.get? key with
        | none => false
        | some hook =>
            hook.active && !flattener.isWithheld (Entries.keys rest) property &&
              renders property value) ||
        branchesRender property rest

end

/-- The properties of a list that a branch contributes to the object around it, where
the given keys stand after its hook. -/
def contributed (later : List String) (value : StyleValue) (properties : List String) :
    List String :=
  properties.filter fun property =>
    !flattener.isWithheld later property && flattener.renders property value

/-! ## The order of the properties -/

def plainKeys (style : Style) : List String :=
  (Entries.keys style).filter fun key => !flattener.hooks.contains key

mutual

/-- The properties of a flattened object in order.  Its own ones come first, unless the
order of the source decides, which lists them one by one. -/
def order : StyleValue → List String
  | .object style =>
      if flattener.settings.sort then orderFrom [] style
      else orderFrom (flattener.plainKeys style) style
  | _ => []

/-- Go through the keys of a style, given the properties listed by then.  A property is
moved to the end if the order of the source decides.  So is what an active hook
contributes; else it is added to the end where it is not listed yet. -/
def orderFrom (listed : List String) : Style → List String
  | [] => listed
  | (key, value) :: rest =>
      match flattener.hooks.hooks.get? key with
      | none =>
          orderFrom
            (if flattener.settings.sort then Entries.place true listed key else listed) rest
      | some hook =>
          if hook.active then
            let properties := flattener.contributed (Entries.keys rest) value (order value)
            orderFrom (properties.foldl (Entries.place flattener.settings.sort) listed) rest
          else orderFrom listed rest

end

/-! ## Which properties have a text -/

def hasText (cell : Option Cell) : Bool :=
  (cell.bind Cell.text?).isSome

theorem hasText_withBranchText (id : String) (outside : Option String) (cell : Option Cell)
    (inside : Option String) :
    hasText (flattener.withBranchText id outside cell inside) =
      (inside.isSome || hasText cell) := by
  cases inside <;> simp [withBranchText, hasText, Cell.text?]

theorem hasText_ownCells {property : String}
    (plain : flattener.hooks.contains property = false) (style : Style) :
    hasText ((flattener.ownCells style).get? property) =
      flattener.rendersOwn property style := by
  rw [get?_ownCells, if_neg (by simp [plain]), rendersOwn]
  cases Entries.get? style property with
  | none => rfl
  | some value =>
      dsimp only [Option.map_some, hasText, Option.bind_some, cell]
      cases flattener.renderer.keepReferences property value <;> rfl

mutual

/-- Whether a property gets a text in a branch does not depend on the texts outside. -/
theorem hasText_cellIn {property : String}
    (plain : flattener.hooks.contains property = false) (outside : Option String)
    (value : StyleValue) :
    hasText (flattener.cellIn property outside value) = flattener.renders property value := by
  cases value with
  | object style =>
      rw [cellIn, renders, hasText_cellThrough plain outside style,
        hasText_ownCells flattener plain]
  | _ => rfl

theorem hasText_cellThrough {property : String}
    (plain : flattener.hooks.contains property = false) (outside : Option String)
    (style : Style) (cell : Option Cell) :
    hasText (flattener.cellThrough property outside style cell) =
      (hasText cell || flattener.branchesRender property style) := by
  match style with
  | [] => rw [cellThrough, branchesRender, Bool.or_false]
  | (key, value) :: rest =>
      cases configured : flattener.hooks.hooks.get? key with
      | none =>
          rw [cellThrough_of_plain (Compiled.contains_eq_false_iff.2 configured),
            hasText_cellThrough plain outside rest, branchesRender, configured,
            Bool.false_or]
      | some hook =>
          have inside := hasText_cellIn plain (textAt outside cell) value
          rw [hasText] at inside
          rw [cellThrough_of_hook configured, hasText_cellThrough plain outside rest,
            branchesRender, configured]
          dsimp only
          cases taken : hook.active && !flattener.isWithheld (Entries.keys rest) property with
          | false => rw [if_neg (by simp), Bool.false_and, Bool.false_or]
          | true =>
              rw [if_pos rfl, hasText_withBranchText, inside, Bool.true_and,
                Bool.or_comm (flattener.renders property value), Bool.or_assoc]

end

/-! ## The keys of the cells -/

def renderedKeys (cells : Entries Cell) : List String :=
  (Entries.keys cells).filter fun property => hasText (cells.get? property)

theorem renderedKeys_cons {property : String} {rest : Entries Cell}
    (absent : property ∉ Entries.keys rest) (cell : Cell) :
    renderedKeys ((property, cell) :: rest) =
      if cell.text?.isSome then property :: renderedKeys rest else renderedKeys rest := by
  have later : (Entries.keys rest).filter
        (fun name => hasText (Entries.get? ((property, cell) :: rest) name)) =
      renderedKeys rest := by
    refine List.filter_congr fun name mem => ?_
    have other : property ≠ name := by
      rintro rfl
      exact absent mem
    rw [Entries.get?_cons, if_neg other]
  rw [renderedKeys, Entries.keys_cons, List.filter_cons, later, Entries.get?_cons,
    if_pos rfl]
  rfl

variable (outer : String → Option String)

/-- Taking a branch places the properties that it has a text for. -/
theorem keys_takeBranch (id : String) (later : List String) {branch : Entries Cell}
    (distinct : (Entries.keys branch).Nodup) (cells : Entries Cell) :
    Entries.keys (flattener.takeBranch id later outer branch cells) =
      ((renderedKeys branch).filter fun property => !flattener.isWithheld later property).foldl
        (Entries.place flattener.settings.sort) (Entries.keys cells) := by
  induction branch generalizing cells with
  | nil => rfl
  | cons entry rest ih =>
      obtain ⟨property, cell⟩ := entry
      obtain ⟨absent, restDistinct⟩ := List.nodup_cons.1 distinct
      have step : flattener.takeBranch id later outer ((property, cell) :: rest) cells =
          flattener.takeBranch id later outer rest
            (flattener.takeCell id later outer cells (property, cell)) := rfl
      rw [step, ih restDistinct, renderedKeys_cons absent]
      cases cell with
      | inert value => rfl
      | rendered text =>
          rw [Cell.text?, Option.isSome_some, if_pos rfl, List.filter_cons, takeCell,
            isWithheld]
          cases flattener.settings.sort && later.contains property with
          | true => rfl
          | false => simp [Entries.keys_write]

/-- The properties that a branch has a text for are those of its order that it
renders. -/
theorem renderedKeys_branchCells {value : StyleValue} (wellFormed : value.WellFormed) :
    renderedKeys (flattener.branchCells outer value) =
      (Entries.keys (flattener.branchCells outer value)).filter fun property =>
        flattener.renders property value := by
  refine List.filter_congr fun property mem => ?_
  rw [get?_branchCells _ _ _ wellFormed,
    hasText_cellIn flattener (flattener.contains_of_mem_branchCells outer mem)]

/-- The properties that are still to come, if the order of the source decides. -/
def pending (style : Style) : List String :=
  if flattener.settings.sort then flattener.plainKeys style else []

theorem plainKeys_cons (key : String) (value : StyleValue) (rest : Style) :
    flattener.plainKeys ((key, value) :: rest) =
      if flattener.hooks.contains key then flattener.plainKeys rest
      else key :: flattener.plainKeys rest := by
  cases hook : flattener.hooks.contains key <;> simp [plainKeys, hook]

theorem pending_of_plain {key : String} (plain : flattener.hooks.contains key = false)
    (value : StyleValue) (rest : Style) :
    flattener.pending ((key, value) :: rest) =
      if flattener.settings.sort then key :: flattener.pending rest
      else flattener.pending rest := by
  unfold pending
  rw [plainKeys_cons, plain]
  cases flattener.settings.sort <;> rfl

theorem pending_of_hook {key : String} (isHook : flattener.hooks.contains key = true)
    (value : StyleValue) (rest : Style) :
    flattener.pending ((key, value) :: rest) = flattener.pending rest := by
  rw [pending, pending, plainKeys_cons, if_pos isHook]

theorem not_mem_pending {rest : Style} {property : String}
    (kept : flattener.isWithheld (Entries.keys rest) property = false) :
    property ∉ flattener.pending rest := by
  unfold pending
  intro mem
  split at mem
  · rename_i sort
    have listed : property ∈ Entries.keys rest := (List.mem_filter.1 mem).1
    simp [isWithheld, sort, listed] at kept
  · cases mem

theorem keys_moveToEnd_pending {key : String} {rest : List String} {listed : List String}
    {cells : Entries Cell} (standing : Entries.keys cells = key :: rest ++ listed)
    (distinct : (Entries.keys cells).Nodup) :
    Entries.keys (cells.moveToEnd key) = rest ++ Entries.place true listed key := by
  have present : key ∈ Entries.keys cells := by simp [standing]
  rw [standing, List.cons_append] at distinct
  obtain ⟨absent, -⟩ := List.nodup_cons.1 distinct
  rw [List.mem_append, not_or] at absent
  rw [Entries.keys_moveToEnd present, standing, List.cons_append, ← Entries.place_append absent.1]
  simp [Entries.place]

mutual

/-- A branch has its cells in order. -/
theorem keys_branchCells (outer : String → Option String) (value : StyleValue)
    (wellFormed : value.WellFormed) :
    Entries.keys (flattener.branchCells outer value) = flattener.order value := by
  cases value with
  | object style =>
      have distinct := flattener.nodup_keys_ownCells wellFormed.1
      have own : Entries.keys (flattener.ownCells style) = flattener.plainKeys style :=
        flattener.keys_ownCells style
      rw [branchCells, order]
      split
      · rename_i sort
        apply keys_run outer style wellFormed.2 _ [] _ distinct
        rw [own, pending, if_pos sort, List.append_nil]
      · rename_i sort
        apply keys_run outer style wellFormed.2 _ _ _ distinct
        rw [own, pending, if_neg sort, List.nil_append]
  | _ => rfl

/-- Going through a style leaves its cells in order, if by then the properties to come
stand in front of the ones listed. -/
theorem keys_run (outer : String → Option String) (style : Style)
    (wellFormed : StyleValue.WellFormedMembers style) (cells : Entries Cell)
    (listed : List String) (standing : Entries.keys cells = flattener.pending style ++ listed)
    (distinct : (Entries.keys cells).Nodup) :
    Entries.keys (flattener.run outer style cells) = flattener.orderFrom listed style := by
  match style with
  | [] =>
      have none : flattener.pending [] = [] := by
        unfold pending plainKeys
        split <;> rfl
      rw [run, orderFrom, standing, none, List.nil_append]
  | (key, value) :: rest =>
      obtain ⟨valueWellFormed, restWellFormed⟩ := wellFormed
      cases configured : flattener.hooks.hooks.get? key with
      | none =>
          have plain := Compiled.contains_eq_false_iff.2 configured
          rw [run_of_plain outer plain, orderFrom, configured]
          dsimp only
          rw [pending_of_plain flattener plain] at standing
          cases sort : flattener.settings.sort with
          | false =>
              rw [sort] at standing
              exact keys_run outer rest restWellFormed cells listed standing distinct
          | true =>
              rw [sort, if_pos rfl] at standing
              apply keys_run outer rest restWellFormed
              · exact keys_moveToEnd_pending standing distinct
              · exact Entries.nodup_keys_moveToEnd distinct key
      | some hook =>
          rw [run_of_hook outer configured, orderFrom, configured]
          dsimp only
          rw [pending_of_hook flattener (Compiled.contains_of_get? configured)] at standing
          cases hook.active with
          | false => exact keys_run outer rest restWellFormed cells listed standing distinct
          | true =>
              rw [if_pos rfl, if_pos rfl]
              have branchDistinct :=
                flattener.nodup_keys_branchCells (resolve cells outer) value valueWellFormed
              apply keys_run outer rest restWellFormed
              · rw [keys_takeBranch flattener outer _ _ branchDistinct,
                  renderedKeys_branchCells flattener _ valueWellFormed,
                  keys_branchCells _ value valueWellFormed, List.filter_filter, standing]
                apply Entries.foldl_place_append
                intro property mem
                obtain ⟨-, taken⟩ := List.mem_filter.1 mem
                simp only [Bool.and_eq_true, Bool.not_eq_true'] at taken
                exact flattener.not_mem_pending taken.1
              · exact flattener.nodup_keys_takeBranch _ _ outer distinct

end

/-- A flattened style has no hook among its keys and lists none of them twice, and they
stand in the order that follows from the keys of the style, from its active hooks, and
from the values that have a text. -/
theorem flattened_keys_in_order {style : Style} (wellFormed : style.WellFormed) :
    (∀ key ∈ Entries.keys (flattener.flatten style),
      flattener.hooks.contains key = false) ∧
      (Entries.keys (flattener.flatten style)).Nodup ∧
      Entries.keys (flattener.flatten style) = flattener.order (.object style) := by
  refine ⟨fun key => flattener.contains_of_mem_flatten,
    flattener.nodup_keys_flatten wellFormed.1, ?_⟩
  rw [flatten, Entries.keys_mapValues]
  exact flattener.keys_branchCells _ _ wellFormed

def sortedPanes : Flattener where
  hooks := Compiled.ofConfiguration (Identifier.named id)
    (Configuration.ofList
      [("hover", .leaf ":hover"), ("dark", .leaf ".dark &"), ("never", .leaf "hover")])
  settings := { sort := true }
  renderer := Renderer.plain

/-- A style with a border that has no text in a branch before the branch inside gives it
one, with a width that is withheld from the branch, and with a branch that cannot
apply. -/
def pane : Style :=
  [("color", .text "black"),
    ("hover", .object
      [("border", .null), ("outline", .list []),
        ("dark", .object [("border", .text "none"), ("color", .text "white")]),
        ("width", .text "1px")]),
    ("width", .number (.ofInt 2)), ("never", .object [("padding", .text "0")]),
    ("margin", .null)]

/-- The keys of the flattened pane. -/
theorem flattened_pane_in_order :
    pane.WellFormed ∧
      Entries.keys (sortedPanes.flatten pane) = ["border", "color", "width", "margin"] := by
  have wellFormed : pane.WellFormed := by
    simp [pane, Style.WellFormed, StyleValue.WellFormed, StyleValue.WellFormedMembers,
      StyleValue.WellFormedItems]
  obtain ⟨-, -, inOrder⟩ := flattened_keys_in_order sortedPanes wellFormed
  exact ⟨wellFormed, inOrder.trans (by decide +kernel)⟩

end Flattener

end ConditionalStyles
