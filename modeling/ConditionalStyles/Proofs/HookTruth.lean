import ConditionalStyles.Proofs.StylesheetShape
import ConditionalStyles.Proofs.ToggleTruth

/-!
# The truth of hooks in a configuration

All hooks of a configuration share one stylesheet.  In the declarations that are read
from its text, a hook stands for the truth of its condition if no other hook declares
anything for its nodes, unless both have one identifier and one normal form and
therefore declare the same.  Hashed identifiers keep hooks apart as long as no two of
their hashes are equal, because a hash is no other hash followed by a path.
-/

namespace ConditionalStyles

open Css

/-- What is read from a stylesheet has the values of the stylesheet. -/
theorem Stylesheet.cascade_sheet (stylesheet : Stylesheet) (matching : String → Bool) :
    stylesheet.sheet.cascade matching = stylesheet.cascade matching := by
  have rules : ((stylesheet.rules.map Rule.entry).filter fun rule => matching rule.1).flatMap
      Prod.snd =
        ((stylesheet.rules.filter fun rule => matching rule.leaf).flatMap
          Rule.declarations).map Declaration.entry := by
    rw [List.filter_map, List.flatMap_map, List.map_flatMap]
    rfl
  rw [Sheet.cascade, Sheet.inForce, sheet, rules, ← List.map_append]
  rfl

namespace Compiled

open Stylesheet

/-- Whether two hooks cannot disturb each other: they have one identifier and one
normal form, or neither is identified like a node of the other. -/
def Apart (scheme : Identifier.Scheme) (first second : String × Condition) : Prop :=
  (scheme first.1 first.2.normalize = scheme second.1 second.2.normalize ∧
      first.2.normalize = second.2.normalize) ∨
    (∀ path, scheme second.1 second.2.normalize ≠
        nodeId (scheme first.1 first.2.normalize) path) ∧
      ∀ path, scheme first.1 first.2.normalize ≠
        nodeId (scheme second.1 second.2.normalize) path

/-- The slots of a hook and of its nodes have the values of the hook's own
stylesheet if the hook is apart from every other valid hook. -/
theorem agreeBelow_of_apart {scheme : Identifier.Scheme} {configuration : Configuration}
    {hook : String × Condition} (mem : hook ∈ configuration.hooks)
    (valid : hook.2.isValid = true)
    (apart : ∀ other ∈ configuration.hooks, other.2.isValid = true →
      Apart scheme hook other) (matching : String → Bool) :
    AgreeBelow
      ((ofCondition (scheme hook.1 hook.2.normalize) hook.2.normalize).cascade matching)
      ((ofConfiguration scheme configuration).stylesheet.cascade matching)
      (scheme hook.1 hook.2.normalize) := by
  refine agreeBelow_join (List.mem_map.2 ⟨hook, mem, ?_⟩) (fun sheet sheetMem => ?_) matching
  · simp [stylesheetOfHook, Condition.isValid_normalize, valid]
  · obtain ⟨other, otherMem, rfl⟩ := List.mem_map.1 sheetMem
    simp only [stylesheetOfHook, Condition.isValid_normalize]
    cases otherValid : other.2.isValid with
    | false => exact Or.inr fun path slot => by simp [properties, Stylesheet.empty]
    | true =>
        rcases apart other otherMem otherValid with ⟨sameId, sameNormal⟩ | ⟨below, above⟩
        · exact Or.inl (by rw [if_pos rfl, sameId, sameNormal])
        · rw [if_pos rfl]
          refine Or.inr fun path => not_mem_properties (Condition.paired_normalize otherValid) ?_
          intro path' same
          rcases exists_path_of_nodeId_eq same with ⟨between, found⟩ | ⟨between, found⟩
          · exact below between found
          · exact above between found

/-- The pair of a hook that is apart from the others says whether its condition is
true as it was configured. -/
theorem isValid_of_apart {scheme : Identifier.Scheme} {configuration : Configuration}
    {hook : String × Condition} (mem : hook ∈ configuration.hooks)
    (valid : hook.2.isValid = true) (isName : IsName (scheme hook.1 hook.2.normalize))
    (apart : ∀ other ∈ configuration.hooks, other.2.isValid = true →
      Apart scheme hook other) (matching : String → Bool) :
    isValid ((ofConfiguration scheme configuration).stylesheet.cascade matching)
        (Slot.whenFalse.property (scheme hook.1 hook.2.normalize)) =
      hook.2.holds matching ∧
    isValid ((ofConfiguration scheme configuration).stylesheet.cascade matching)
        (Slot.whenTrue.property (scheme hook.1 hook.2.normalize)) =
      !hook.2.holds matching := by
  have tied : Tied _ matching (scheme hook.1 hook.2.normalize) hook.2.normalize :=
    tied_ofCondition (Condition.paired_normalize valid) matching
  rw [← Condition.holds_normalize matching hook.2]
  exact tied.isValid isName (agreeBelow_of_apart mem valid apart matching)

theorem id?_of_mem {scheme : Identifier.Scheme} {configuration : Configuration}
    {hook : String × Condition} (mem : hook ∈ configuration.hooks) :
    (ofConfiguration scheme configuration).id? hook.1 =
      some (scheme hook.1 hook.2.normalize) := by
  have keys_eq : Entries.keys (ofConfiguration scheme configuration).hooks =
      Entries.keys configuration.hooks := by
    simp [ofConfiguration, Entries.keys, Function.comp_def]
  have distinct : (Entries.keys (ofConfiguration scheme configuration).hooks).Nodup := by
    rw [keys_eq]
    exact configuration.nodup
  have configured : (hook.1, Compiled.hook scheme hook.1 hook.2) ∈
      (ofConfiguration scheme configuration).hooks :=
    List.mem_map.2 ⟨hook, mem, rfl⟩
  rw [id?, Entries.get?_eq_some_of_mem distinct configured]
  rfl

/-- The text of the stylesheet computes the conditions of its hooks.  If the hooks with a
valid condition are apart from each other, then, whatever leaves match, exactly one slot
of the pair of each of them is valid, and it is the one that is valid while the hook
is true exactly if the condition is true as it was configured. -/
theorem stylesheet_computes_conditions (scheme : Identifier.Scheme)
    (configuration : Configuration)
    (named : ∀ hook ∈ configuration.hooks, hook.2.isValid = true →
      IsName (scheme hook.1 hook.2.normalize))
    (apart : ∀ first ∈ configuration.hooks, ∀ second ∈ configuration.hooks,
      first.1 ≠ second.1 → first.2.isValid = true → second.2.isValid = true →
        Apart scheme first second) :
    ∃ sheet, Sheet.ofText? configuration.validLeaves
        (ofConfiguration scheme configuration).cssText = some sheet ∧
      ∀ matching, ∀ hook ∈ configuration.hooks, hook.2.isValid = true →
        ∃ id, (ofConfiguration scheme configuration).id? hook.1 = some id ∧
          isValid (sheet.cascade matching) ("--" ++ id ++ "-0") = hook.2.holds matching ∧
          isValid (sheet.cascade matching) ("--" ++ id ++ "-1") = !hook.2.holds matching := by
  have namedValid : ∀ hook ∈ configuration.validHooks,
      IsName (scheme hook.1 hook.2.normalize) := fun hook mem =>
    named hook (List.mem_filter.1 mem).1 (List.mem_filter.1 mem).2
  refine ⟨_, ofText?_cssText scheme configuration namedValid, ?_⟩
  intro matching hook mem valid
  refine ⟨_, id?_of_mem mem, ?_⟩
  rw [cascade_sheet, ← Slot.property_whenFalse, ← Slot.property_whenTrue]
  refine isValid_of_apart mem valid (named hook mem valid) ?_ matching
  intro other otherMem otherValid
  by_cases sameName : hook.1 = other.1
  · have sameCondition : hook.2 = other.2 := by
      have found := Entries.get?_eq_some_of_mem configuration.nodup mem
      rw [sameName, Entries.get?_eq_some_of_mem configuration.nodup otherMem] at found
      exact (Option.some.inj found).symm
    exact Or.inl (by rw [sameName, sameCondition]; exact ⟨rfl, rfl⟩)
  · exact apart hook mem other otherMem sameName valid otherValid

def hoverAndPressed : Configuration where
  hooks := [("hover", .leaf ":hover"),
    ("pressed", .composite .and [.leaf ":active",
      .composite .or [.leaf ":focus", .leaf "@media print", .leaf ".touch &"]])]
  nodup := by decide

theorem apart_hoverAndPressed : ∀ first ∈ hoverAndPressed.hooks,
    ∀ second ∈ hoverAndPressed.hooks, first.1 ≠ second.1 →
      first.2.isValid = true → second.2.isValid = true →
        Apart (Identifier.named id) first second := by
  have apart (path : List Side) :
      "hover" ≠ nodeId "pressed" path ∧ "pressed" ≠ nodeId "hover" path := by
    constructor <;> intro same <;> simpa using congrArg String.toList same
  intro first firstMem second secondMem distinct _ _
  simp only [hoverAndPressed, List.mem_cons, List.not_mem_nil, or_false] at firstMem secondMem
  rcases firstMem with rfl | rfl <;> rcases secondMem with rfl | rfl
  · exact absurd rfl distinct
  · exact Or.inr ⟨fun path => (apart path).2, fun path => (apart path).1⟩
  · exact Or.inr ⟨fun path => (apart path).1, fun path => (apart path).2⟩
  · exact absurd rfl distinct

/-- The pair of a nested condition stands for its truth. -/
theorem stylesheet_computes_pressed :
    (∀ hook ∈ hoverAndPressed.hooks, hook.2.isValid = true →
      IsName (Identifier.named id hook.1 hook.2.normalize)) ∧
    (∀ first ∈ hoverAndPressed.hooks, ∀ second ∈ hoverAndPressed.hooks,
      first.1 ≠ second.1 → first.2.isValid = true → second.2.isValid = true →
        Apart (Identifier.named id) first second) ∧
    ∃ sheet, Sheet.ofText? [":hover", ":active", ":focus", "@media print", ".touch &"]
        (ofConfiguration (Identifier.named id) hoverAndPressed).cssText = some sheet ∧
      isValid (sheet.cascade fun leaf => leaf == ":active" || leaf == ".touch &")
        "--pressed-0" = true ∧
      isValid (sheet.cascade fun leaf => leaf == ":active" || leaf == ".touch &")
        "--pressed-1" = false := by
  have named : ∀ hook ∈ hoverAndPressed.hooks, hook.2.isValid = true →
      IsName (Identifier.named id hook.1 hook.2.normalize) := by
    decide
  refine ⟨named, apart_hoverAndPressed, ?_⟩
  obtain ⟨sheet, read, computes⟩ :=
    stylesheet_computes_conditions _ _ named apart_hoverAndPressed
  obtain ⟨_, identified, whenFalse, whenTrue⟩ :=
    computes (fun leaf => leaf == ":active" || leaf == ".touch &") _
      (List.mem_cons_of_mem _ List.mem_cons_self) (by decide)
  obtain rfl := Option.some.inj identified
  exact ⟨sheet, read, whenFalse, whenTrue⟩

/-! ## Hashed identifiers -/

/-- The truth value of a hook while some leaves match, read from its pair in the text of
the stylesheet. -/
def truthOf? (scheme : Identifier.Scheme) (configuration : Configuration)
    (matching : String → Bool) (name : String) : Option Bool :=
  (Sheet.ofText? configuration.validLeaves (ofConfiguration scheme configuration).cssText).bind
    fun sheet => ((ofConfiguration scheme configuration).id? name).bind
      (truth? (sheet.cascade matching))

/-- The truth that a pair stands for in the stylesheet is read from the text. -/
theorem truthOf?_eq_some {scheme : Identifier.Scheme} {configuration : Configuration}
    (named : ∀ hook ∈ configuration.hooks, IsName (scheme hook.1 hook.2.normalize))
    {hook : String × Condition} (mem : hook ∈ configuration.hooks)
    {matching : String → Bool} {holds : Bool}
    (pair : isValid ((ofConfiguration scheme configuration).stylesheet.cascade matching)
          (Slot.whenFalse.property (scheme hook.1 hook.2.normalize)) = holds ∧
        isValid ((ofConfiguration scheme configuration).stylesheet.cascade matching)
          (Slot.whenTrue.property (scheme hook.1 hook.2.normalize)) = !holds) :
    truthOf? scheme configuration matching hook.1 = some holds := by
  have namedValid : ∀ hook ∈ configuration.validHooks,
      IsName (scheme hook.1 hook.2.normalize) := fun hook mem =>
    named hook (List.mem_filter.1 mem).1
  rw [truthOf?, ofText?_cssText scheme configuration namedValid, Option.bind_some,
    id?_of_mem mem, Option.bind_some, cascade_sheet, truth?, pair.1, pair.2]
  cases holds <;> rfl

theorem isName_anonymous (name : String) (condition : Condition) :
    IsName (Identifier.anonymous name condition) :=
  .of_isPortable Identifier.isPortable_of_mem_anonymous

/-- Hashes that differ keep hooks apart, because a hash never continues another one
by a path. -/
theorem apart_anonymous {first second : String × Condition}
    (unshared : Identifier.ofCondition second.2.normalize =
        Identifier.ofCondition first.2.normalize →
      second.2.normalize = first.2.normalize) :
    Apart Identifier.anonymous first second := by
  have noPath {first second : String × Condition} {path : List Side}
      (same : Identifier.anonymous second.1 second.2.normalize =
        nodeId (Identifier.anonymous first.1 first.2.normalize) path) :
      Identifier.ofCondition second.2.normalize =
        Identifier.ofCondition first.2.normalize := by
    rw [← nodeId_nil (Identifier.anonymous second.1 _)] at same
    exact (Identifier.nodeId_anonymous_inj.1 same).1
  by_cases shared : Identifier.ofCondition second.2.normalize =
      Identifier.ofCondition first.2.normalize
  · exact Or.inl ⟨shared.symm, (unshared shared).symm⟩
  · exact Or.inr ⟨fun _ same => shared (noPath same),
      fun _ same => shared (noPath same).symm⟩

/-- Two hooks share a hashed identifier exactly if the hashes of the canonical texts
are the same number.  A hook with a valid condition stands for its own condition, in
whatever configuration, if no other normal form among the valid hooks has its hash. -/
theorem anonymous_hook_keeps_truth (configuration : Configuration) :
    (∀ first ∈ configuration.hooks, ∀ second ∈ configuration.hooks,
      ((ofConfiguration Identifier.anonymous configuration).id? first.1 =
          (ofConfiguration Identifier.anonymous configuration).id? second.1 ↔
        Identifier.hashNumber first.2.normalize.text =
          Identifier.hashNumber second.2.normalize.text)) ∧
    ∀ hook ∈ configuration.hooks, hook.2.isValid = true →
      (∀ other ∈ configuration.hooks, other.2.isValid = true →
        Identifier.hashNumber other.2.normalize.text =
            Identifier.hashNumber hook.2.normalize.text →
          other.2.normalize = hook.2.normalize) →
      ∀ matching,
        truthOf? Identifier.anonymous configuration matching hook.1 =
          some (hook.2.holds matching) := by
  constructor
  · intro first firstMem second secondMem
    rw [id?_of_mem firstMem, id?_of_mem secondMem, Option.some.injEq]
    exact Identifier.hash_inj
  · intro hook mem valid unshared matching
    refine truthOf?_eq_some (fun _ _ => isName_anonymous _ _) mem
      (isValid_of_apart mem valid (isName_anonymous _ _) ?_ matching)
    intro other otherMem otherValid
    exact apart_anonymous fun shared =>
      unshared other otherMem otherValid (Identifier.hash_inj.1 shared)

/-- A nested condition keeps its truth under its hashed identifier. -/
theorem anonymous_pressed_keeps_truth :
    (∀ other ∈ hoverAndPressed.hooks, other.2.isValid = true →
      Identifier.hashNumber other.2.normalize.text =
          Identifier.hashNumber (hoverAndPressed.hooks[1].2).normalize.text →
        other.2.normalize = (hoverAndPressed.hooks[1].2).normalize) ∧
    truthOf? Identifier.anonymous hoverAndPressed
      (fun leaf => leaf == ":active" || leaf == ".touch &") "pressed" = some true := by
  have unshared : ∀ other ∈ hoverAndPressed.hooks, other.2.isValid = true →
      Identifier.hashNumber other.2.normalize.text =
          Identifier.hashNumber (hoverAndPressed.hooks[1].2).normalize.text →
        other.2.normalize = (hoverAndPressed.hooks[1].2).normalize := by
    intro other mem _ shared
    rcases List.mem_cons.1 mem with rfl | mem
    · exact absurd shared (by decide +kernel)
    · rw [List.mem_singleton.1 mem]
      rfl
  refine ⟨unshared, ?_⟩
  exact (anonymous_hook_keeps_truth hoverAndPressed).2 _
    (List.mem_cons_of_mem _ List.mem_cons_self) (by decide) unshared
    (fun leaf => leaf == ":active" || leaf == ".touch &")

def collidingHooks : Configuration where
  hooks := [("first", .leaf ":Aa"), ("second", .leaf ":BB")]
  nodup := by decide

/-- Hooks of one hash disturb each other: while only the leaf of the second one
matches, the pair of the first one stands for true, and its condition is false. -/
theorem anonymous_hooks_collide :
    (∀ hook ∈ collidingHooks.hooks, hook.2.isValid = true) ∧
      (ofConfiguration Identifier.anonymous collidingHooks).id? "first" =
        (ofConfiguration Identifier.anonymous collidingHooks).id? "second" ∧
      (Condition.leaf ":Aa").normalize ≠ (Condition.leaf ":BB").normalize ∧
      truthOf? Identifier.anonymous collidingHooks (· == ":BB") "first" = some true ∧
      (Condition.leaf ":Aa").holds (· == ":BB") = false := by
  have shared : Identifier.ofCondition (.leaf ":BB") = Identifier.ofCondition (.leaf ":Aa") :=
    Identifier.hash_inj.2 (by decide)
  have first : (ofConfiguration Identifier.anonymous collidingHooks).id? "first" =
      some (Identifier.ofCondition (.leaf ":Aa")) := rfl
  have second : (ofConfiguration Identifier.anonymous collidingHooks).id? "second" =
      some (Identifier.ofCondition (.leaf ":BB")) := rfl
  have tied : Tied ((ofConfiguration Identifier.anonymous collidingHooks).stylesheet.cascade
      (· == ":BB")) (· == ":BB") (Identifier.ofCondition (.leaf ":Aa")) (.leaf ":BB") := by
    have rules : (ofConfiguration Identifier.anonymous collidingHooks).stylesheet.rules =
        [{ leaf := ":Aa", kind := .pseudo
           declarations := matched (Identifier.ofCondition (.leaf ":Aa")) },
          { leaf := ":BB", kind := .pseudo
            declarations := matched (Identifier.ofCondition (.leaf ":BB")) }] := rfl
    refine .leaf fun declaration mem => ?_
    have mem : declaration ∈ matched (Identifier.ofCondition (.leaf ":Aa")) := mem
    rw [get?_cascade, rules, shared]
    simp [matched, lastText?_pair mem]
  refine ⟨by decide, by rw [first, second, shared], by simp [Condition.normalize], ?_, rfl⟩
  have mem : ("first", .leaf ":Aa") ∈ collidingHooks.hooks := List.mem_cons_self
  exact truthOf?_eq_some (fun _ _ => isName_anonymous _ _) mem
    (tied.isValid (isName_anonymous "first" _) fun _ _ => rfl)

end Compiled

end ConditionalStyles
