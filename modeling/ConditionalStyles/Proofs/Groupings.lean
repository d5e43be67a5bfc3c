import Mathlib.Data.List.Forall2
import Mathlib.Logic.Relation
import ConditionalStyles.Compiled

/-!
# Groupings of a condition

The operands of a composite may be grouped in several ways without a change of
meaning: a composite of one operand is that operand, and the last operands of a
composite may be put into a composite of their own under the same operator.
Conditions that differ only by such steps, anywhere inside and in either
direction, are those with the same normal form, and nothing that is compiled from
a configuration tells them apart.
-/

namespace ConditionalStyles

namespace Condition

/-- One step of regrouping. -/
inductive Regroups : Condition → Condition → Prop where
  /-- A composite of one operand is replaced by the operand. -/
  | single (operator : Operator) (operand : Condition) :
      Regroups (.composite operator [operand]) operand
  /-- The last operands of a composite are put into one. -/
  | group (operator : Operator) (front : List Condition) {tail : List Condition}
      (nonempty : tail ≠ []) :
      Regroups (.composite operator (front ++ tail))
        (.composite operator (front ++ [.composite operator tail]))
  /-- An operand of a composite is regrouped. -/
  | operand (operator : Operator) (before after : List Condition)
      {first second : Condition} (inside : Regroups first second) :
      Regroups (.composite operator (before ++ first :: after))
        (.composite operator (before ++ second :: after))

/-- Two conditions are connected if finitely many steps of regrouping, each in
either direction, lead from one to the other. -/
abbrev Connected : Condition → Condition → Prop :=
  Relation.EqvGen Regroups

/-! ## Steps keep the normal form -/

theorem normalizeAll_eq_map (operands : List Condition) :
    normalizeAll operands = operands.map normalize := by
  induction operands with
  | nil => rfl
  | cons first rest ih => rw [normalizeAll, ih, List.map_cons]

/-- A chain at the end of a chain continues it. -/
theorem chain_append_chain (operator : Operator) (front : List Condition)
    {tail : List Condition} (nonempty : tail ≠ []) :
    chain operator (front ++ [chain operator tail]) = chain operator (front ++ tail) := by
  induction front with
  | nil => rfl
  | cons first rest ih =>
      -- Neither chain ends with `first`, so that both have it as their first operand.
      have step {others : List Condition} (more : others ≠ []) :
          chain operator (first :: others) =
            .composite operator [first, chain operator others] := by
        cases others with
        | nil => exact absurd rfl more
        | cons second others => rfl
      rw [List.cons_append, List.cons_append, step (by simp), step (by simp [nonempty]), ih]

theorem Regroups.normalize_eq {first second : Condition}
    (regroups : Regroups first second) : first.normalize = second.normalize := by
  induction regroups with
  | single operator operand => rfl
  | @group operator front tail nonempty =>
      simp only [normalize, normalizeAll_eq_map, List.map_append, List.map_cons, List.map_nil]
      exact (chain_append_chain operator _ (by simpa using nonempty)).symm
  | operand operator before after inside ih =>
      simp only [normalize, normalizeAll_eq_map, List.map_append, List.map_cons, ih]

theorem Connected.normalize_eq {first second : Condition}
    (connected : Connected first second) : first.normalize = second.normalize := by
  induction connected with
  | rel first second regroups => exact regroups.normalize_eq
  | refl condition => rfl
  | symm first second _ ih => exact ih.symm
  | trans first second third _ _ ih ih' => exact ih.trans ih'

/-! ## Steps reach the normal form -/

theorem Connected.operand (operator : Operator) (before after : List Condition)
    {first second : Condition} (connected : Connected first second) :
    Connected (.composite operator (before ++ first :: after))
      (.composite operator (before ++ second :: after)) := by
  induction connected with
  | rel first second regroups => exact .rel _ _ (.operand operator before after regroups)
  | refl condition => exact .refl _
  | symm first second _ ih => exact .symm _ _ ih
  | trans first second third _ _ ih ih' => exact .trans _ _ _ ih ih'

theorem connected_chain (operator : Operator) (operands : List Condition) :
    Connected (.composite operator operands) (chain operator operands) := by
  fun_induction chain operator operands with
  | case1 => exact .refl _
  | case2 only => exact .rel _ _ (.single operator only)
  | case3 first second rest ih =>
      have grouped : Connected (.composite operator (first :: second :: rest))
          (.composite operator [first, .composite operator (second :: rest)]) :=
        .rel _ _ (.group operator [first] (List.cons_ne_nil second rest))
      exact .trans _ _ _ grouped (Connected.operand operator [first] [] ih)

mutual

/-- A condition is connected to its normal form. -/
theorem connected_normalize (condition : Condition) :
    Connected condition condition.normalize := by
  cases condition with
  | leaf text => exact .refl _
  | composite operator operands =>
      rw [normalize]
      exact .trans _ _ _ (connected_normalizeAll operator [] operands)
        (connected_chain operator _)

/-- Operands are brought to normal form one after the other. -/
theorem connected_normalizeAll (operator : Operator) (done operands : List Condition) :
    Connected (.composite operator (done ++ operands))
      (.composite operator (done ++ normalizeAll operands)) := by
  match operands with
  | [] => exact .refl _
  | first :: rest =>
      have here : Connected (.composite operator (done ++ first :: rest))
          (.composite operator (done ++ first.normalize :: rest)) :=
        Connected.operand operator done rest (connected_normalize first)
      have later := connected_normalizeAll operator (done ++ [first.normalize]) rest
      rw [List.append_assoc, List.append_assoc] at later
      exact .trans _ _ _ here later

end

end Condition

/-! ## Configurations -/

def Configuration.Connected (first second : Configuration) : Prop :=
  List.Forall₂ (fun hook hook' => hook.1 = hook'.1 ∧ Condition.Connected hook.2 hook'.2)
    first.hooks second.hooks

/-- What depends on the names and normal forms of hooks alone is the same for
connected configurations. -/
theorem Configuration.Connected.map_eq {α : Type} {first second : Configuration}
    (connected : first.Connected second) (f : String × Condition → α)
    (sameNormal : ∀ name condition condition',
      Condition.normalize condition = Condition.normalize condition' →
        f (name, condition) = f (name, condition')) :
    first.hooks.map f = second.hooks.map f := by
  unfold Configuration.Connected at connected
  generalize first.hooks = hooks, second.hooks = hooks' at connected ⊢
  induction connected with
  | nil => rfl
  | @cons hook hook' rest rest' same _ ih =>
      obtain ⟨name, condition⟩ := hook
      obtain ⟨name', condition'⟩ := hook'
      obtain ⟨rfl, regrouped⟩ := same
      rw [List.map_cons, List.map_cons, ih,
        sameNormal name condition condition' regrouped.normalize_eq]

theorem Compiled.ofConfiguration_eq_of_connected {first second : Configuration}
    (connected : first.Connected second) (scheme : Identifier.Scheme) :
    Compiled.ofConfiguration scheme first = Compiled.ofConfiguration scheme second := by
  have sheets := connected.map_eq
    (fun hook => Compiled.stylesheetOfHook scheme hook.1 hook.2) (by
      intro name condition condition' same
      simp only [Compiled.stylesheetOfHook, same])
  have hooks := connected.map_eq
    (fun hook => (hook.1, Compiled.hook scheme hook.1 hook.2)) (by
      intro name condition condition' same
      simp only [Compiled.hook, same])
  unfold Compiled.ofConfiguration
  rw [sheets, hooks]

namespace Condition

/-- Two conditions have one normal form exactly if steps of regrouping connect them.
So connected conditions are identified alike, be it by their hash alone or with the
name before it, and configurations with connected conditions have the same
stylesheet, identifiers and active hooks under every scheme. -/
theorem normalize_eq_iff_connected :
    (∀ first second : Condition,
      first.normalize = second.normalize ↔ Connected first second) ∧
    (∀ first second : Condition, Connected first second → ∀ name,
      Identifier.anonymous name first.normalize =
          Identifier.anonymous name second.normalize ∧
        Identifier.readable name first.normalize =
          Identifier.readable name second.normalize) ∧
    ∀ first second : Configuration, first.Connected second →
      ∀ scheme, Compiled.ofConfiguration scheme first =
        Compiled.ofConfiguration scheme second := by
  refine ⟨fun first second => ⟨?_, Connected.normalize_eq⟩, ?_, ?_⟩
  · intro same
    have fromSecond := connected_normalize second
    rw [← same] at fromSecond
    exact .trans _ _ _ (connected_normalize first) (.symm _ _ fromSecond)
  · intro first second connected name
    rw [connected.normalize_eq]
    exact ⟨rfl, rfl⟩
  · intro first second connected scheme
    exact Compiled.ofConfiguration_eq_of_connected connected scheme

def wideAlternatives : Condition :=
  .composite .or [.leaf ":hover", .leaf ":focus", .composite .and [.leaf ":active"]]

def pairedAlternatives : Condition :=
  .composite .or [.leaf ":hover", .composite .or [.leaf ":focus", .leaf ":active"]]

def hookOf (condition : Condition) : Configuration :=
  Configuration.empty.insert "pressed" condition

/-- Alternatives that are grouped in two ways compile alike. -/
theorem normalize_eq_alternatives :
    Connected wideAlternatives pairedAlternatives ∧
      (hookOf wideAlternatives).Connected (hookOf pairedAlternatives) ∧
      wideAlternatives.normalize = pairedAlternatives.normalize ∧
      Identifier.readable "pressed" wideAlternatives.normalize =
        Identifier.readable "pressed" pairedAlternatives.normalize ∧
      Compiled.ofConfiguration Identifier.anonymous (hookOf wideAlternatives) =
        Compiled.ofConfiguration Identifier.anonymous (hookOf pairedAlternatives) := by
  have unwrapped : Regroups wideAlternatives
      (.composite .or [.leaf ":hover", .leaf ":focus", .leaf ":active"]) :=
    .operand .or [.leaf ":hover", .leaf ":focus"] [] (.single .and (.leaf ":active"))
  have grouped : Regroups
      (.composite .or [.leaf ":hover", .leaf ":focus", .leaf ":active"])
      pairedAlternatives :=
    .group .or [.leaf ":hover"] (List.cons_ne_nil (leaf ":focus") [leaf ":active"])
  have connected : Connected wideAlternatives pairedAlternatives :=
    .trans _ _ _ (.rel _ _ unwrapped) (.rel _ _ grouped)
  have connectedHooks : (hookOf wideAlternatives).Connected (hookOf pairedAlternatives) :=
    .cons ⟨rfl, connected⟩ .nil
  obtain ⟨normalForms, identifiers, compiled⟩ := normalize_eq_iff_connected
  exact ⟨connected, connectedHooks, (normalForms _ _).2 connected,
    (identifiers _ _ connected "pressed").2, compiled _ _ connectedHooks Identifier.anonymous⟩

end Condition

end ConditionalStyles
