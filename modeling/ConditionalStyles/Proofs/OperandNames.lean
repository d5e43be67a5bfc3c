import ConditionalStyles.Proofs.HookTruth
import ConditionalStyles.Proofs.Nodes

/-!
# Hooks named like operands

A rule may name hooks as it likes, and the operands of a condition are named after the hook.
So different identifiers alone do not keep hooks apart: a hook can be named like an operand of
another one, and then the rules of its leaves switch that operand.  If this is excluded, no two
hooks have a node of one name, and every hook stands for the truth of its own condition.
-/

namespace ConditionalStyles

/-! ## Nodes that keep their values -/

namespace Condition

theorem node?_append (condition : Condition) (path path' : List Stylesheet.Side) :
    condition.node? (path ++ path') =
      (condition.node? path).bind fun node => node.node? path' := by
  induction path generalizing condition with
  | nil => rfl
  | cons side path ih =>
      rw [List.cons_append, node?, node?, Option.bind_assoc]
      exact Option.bind_congr fun operand _ => ih operand

end Condition

open Css

namespace Stylesheet

theorem exists_slot_of_mem_declarations {id : String} {node : Node}
    {declaration : Declaration} (mem : declaration ∈ node.declarations id) :
    ∃ slot : Slot, declaration.property = slot.property (nodeId id node.path) := by
  rw [← Node.mem_slots, ← Node.map_property_declarations]
  exact List.mem_map_of_mem mem

theorem exists_node_of_mem_properties {id : String} {condition : Condition}
    (paired : condition.Paired) {property : String}
    (mem : property ∈ (ofCondition id condition).properties) :
    ∃ node ∈ condition.nodes, ∃ slot : Slot,
      property = slot.property (nodeId id node.path) := by
  rw [properties, initializers_ofCondition paired, rules_ofCondition paired] at mem
  obtain ⟨declaration, declarationMem, rfl⟩ := List.mem_map.1 mem
  rcases List.mem_append.1 declarationMem with initial | inRule
  · obtain ⟨node, nodeMem, own⟩ := List.mem_flatMap.1 initial
    exact ⟨node, nodeMem, exists_slot_of_mem_declarations own⟩
  · obtain ⟨rule, ruleMem, own⟩ := List.mem_flatMap.1 inRule
    obtain ⟨⟨path, content⟩, nodeMem, leaf⟩ := List.mem_filterMap.1 ruleMem
    cases content with
    | composite operator operands => cases leaf
    | leaf text =>
        obtain ⟨kind, -, rfl⟩ := Option.map_eq_some_iff.1 leaf
        exact ⟨_, nodeMem, exists_slot_of_mem_pair own⟩

/-- Being tied is about the slots of nodes that the condition has. -/
theorem Tied.congr_nodes {values values' : Entries String} {matching : String → Bool}
    {id : String} {condition : Condition} (tied : Tied values matching id condition)
    (agree : ∀ node ∈ condition.nodes, ∀ slot : Slot,
      values'.get? (slot.property (nodeId id node.path)) =
        values.get? (slot.property (nodeId id node.path))) :
    Tied values' matching id condition := by
  have kept {id : String} {declarations : List Declaration}
      (root : ∀ slot : Slot, values'.get? (slot.property id) = values.get? (slot.property id))
      (slots : ∀ declaration ∈ declarations,
        ∃ slot : Slot, declaration.property = slot.property id)
      (own : ∀ declaration ∈ declarations,
        values.get? declaration.property = some declaration.value.text) :
      ∀ declaration ∈ declarations,
        values'.get? declaration.property = some declaration.value.text := by
    intro declaration mem
    obtain ⟨slot, named⟩ := slots declaration mem
    rw [← own declaration mem, named]
    exact root slot
  induction tied with
  | @leaf id text own =>
      have root := agree { path := [], condition := .leaf text } List.mem_cons_self
      simp only [nodeId_nil] at root
      refine .leaf (kept root (fun declaration mem => ?_) own)
      split at mem <;> exact exists_slot_of_mem_pair mem
  | @composite operator id left right leftTied rightTied own leftIh rightIh =>
      rw [Condition.nodes_composite] at agree
      have root := agree { path := [], condition := .composite operator [left, right] }
        (by simp)
      simp only [nodeId_nil] at root
      -- A node of an operand is a node of the composite under one more side.
      have below (side : Side) (nodes : List Node)
          (listed : ∀ node ∈ nodes, node.under side ∈ left.nodes.map (Node.under .left) ++
            right.nodes.map (Node.under .right)) :
          ∀ node ∈ nodes, ∀ slot : Slot,
            values'.get? (slot.property (nodeId (nodeId id [side]) node.path)) =
              values.get? (slot.property (nodeId (nodeId id [side]) node.path)) := by
        intro node mem slot
        rw [nodeId_nodeId]
        exact agree (node.under side) (List.mem_append_left _ (listed node mem)) slot
      refine .composite (leftIh (below .left left.nodes fun node mem => ?_))
        (rightIh (below .right right.nodes fun node mem => ?_))
        (kept root (fun _ => exists_slot_of_mem_combined) own)
      · exact List.mem_append_left _ (List.mem_map_of_mem mem)
      · exact List.mem_append_right _ (List.mem_map_of_mem mem)

end Stylesheet

namespace Compiled

open Stylesheet

/-! ## Rules that name hooks -/

/-- A rule that gives the hooks of a configuration portable and different identifiers. -/
structure Separates (rule : String → String) (configuration : Configuration) : Prop where
  portable : ∀ hook ∈ configuration.hooks, (rule hook.1).toList.all Identifier.isPortable = true
  different : ∀ first ∈ configuration.hooks, ∀ second ∈ configuration.hooks,
    rule first.1 = rule second.1 → first.1 = second.1

theorem Separates.isName {rule : String → String} {configuration : Configuration}
    (separates : Separates rule configuration) :
    ∀ hook ∈ configuration.hooks, IsName (rule hook.1) := by
  intro hook mem
  apply IsName.of_isPortable
  exact List.all_eq_true.1 (separates.portable hook mem)

/-- Whether a hook is named like an operand, at any depth, of another one. -/
def IsNamedLikeOperand (rule : String → String) (hook other : String × Condition) : Prop :=
  ∃ side path node, other.2.normalize.node? (side :: path) = some node ∧
    rule hook.1 = nodeId (rule other.1) (side :: path)

section

variable {rule : String → String} {configuration : Configuration}
  {hook other : String × Condition}

/-- A node of one hook is named like a node of another hook only if one of the two hooks is
named like an operand of the other one. -/
theorem isNamedLikeOperand_of_nodeId_eq (different : rule hook.1 ≠ rule other.1)
    {path path' : List Side} {node node' : Condition}
    (found : hook.2.normalize.node? path = some node)
    (found' : other.2.normalize.node? path' = some node')
    (same : nodeId (rule hook.1) path = nodeId (rule other.1) path') :
    IsNamedLikeOperand rule other hook ∨ IsNamedLikeOperand rule hook other := by
  -- The longer identifier is the shorter one with the beginning of its path.
  have operand {first second : String × Condition} {path path' between : List Side}
      {node : Condition} (different : rule first.1 ≠ rule second.1)
      (found : first.2.normalize.node? path = some node)
      (same : nodeId (rule first.1) path = nodeId (rule second.1) path')
      (longer : rule second.1 = nodeId (rule first.1) between) :
      IsNamedLikeOperand rule second first := by
    rw [longer, nodeId_nodeId] at same
    rw [nodeId_injective same, Condition.node?_append] at found
    obtain ⟨middle, foundMiddle, -⟩ := Option.bind_eq_some_iff.1 found
    cases between with
    | nil => exact absurd ((nodeId_nil _).symm.trans longer.symm) different
    | cons side between => exact ⟨side, between, middle, foundMiddle, longer⟩
  rcases exists_path_of_nodeId_eq same with ⟨between, longer⟩ | ⟨between, longer⟩
  · exact Or.inl (operand different found same longer)
  · exact Or.inr (operand different.symm found' same.symm longer)

theorem eq_of_name_eq (mem : hook ∈ configuration.hooks)
    (otherMem : other ∈ configuration.hooks) (same : hook.1 = other.1) : hook = other := by
  have found := Entries.get?_eq_some_of_mem configuration.nodup mem
  rw [same, Entries.get?_eq_some_of_mem configuration.nodup otherMem] at found
  exact Prod.ext same (Option.some.inj found).symm

/-- The nodes of a hook keep their values among all hooks, if no two hooks are named like an
operand of one another. -/
theorem tied_of_not_isNamedLikeOperand (separates : Separates rule configuration)
    (mem : hook ∈ configuration.hooks) (valid : hook.2.isValid = true)
    (apart : ∀ other ∈ configuration.hooks, other.2.isValid = true →
      ¬ IsNamedLikeOperand rule other hook ∧ ¬ IsNamedLikeOperand rule hook other)
    (matching : String → Bool) :
    Tied ((ofConfiguration (Identifier.named rule) configuration).stylesheet.cascade matching)
      matching (rule hook.1) hook.2.normalize := by
  have paired := Condition.paired_normalize valid
  refine (tied_ofCondition paired matching).congr_nodes fun node nodeMem slot => ?_
  refine get?_cascade_join (List.mem_map.2 ⟨hook, mem, ?_⟩) (fun sheet sheetMem => ?_) matching
  · simp [stylesheetOfHook, Condition.isValid_normalize, valid, Identifier.named]
  · obtain ⟨other, otherMem, rfl⟩ := List.mem_map.1 sheetMem
    simp only [stylesheetOfHook, Condition.isValid_normalize]
    cases otherValid : other.2.isValid with
    | false => exact Or.inr (by simp [properties, Stylesheet.empty])
    | true =>
        rw [if_pos rfl]
        by_cases sameName : hook.1 = other.1
        · rw [eq_of_name_eq mem otherMem sameName]
          exact Or.inl rfl
        · refine Or.inr fun declared => ?_
          have otherPaired := Condition.paired_normalize otherValid
          obtain ⟨node', nodeMem', slot', named⟩ :=
            exists_node_of_mem_properties otherPaired declared
          have different : rule hook.1 ≠ rule other.1 := fun same =>
            sameName (separates.different hook mem other otherMem same)
          have clash := isNamedLikeOperand_of_nodeId_eq different
            ((Condition.mem_nodes paired).1 nodeMem)
            ((Condition.mem_nodes otherPaired).1 nodeMem') (Slot.property_inj.1 named).2
          exact clash.elim (apart other otherMem otherValid).1 (apart other otherMem otherValid).2

/-- Under a rule that gives all hooks portable and different identifiers, a hook with a valid
condition stands for its own condition, whatever leaves match, if no other valid hook is named
like one of its operands and it is not named like an operand of another valid hook. -/
theorem named_hook_keeps_truth (separates : Separates rule configuration)
    (mem : hook ∈ configuration.hooks) (valid : hook.2.isValid = true)
    (apart : ∀ other ∈ configuration.hooks, other.2.isValid = true →
      ¬ IsNamedLikeOperand rule other hook ∧ ¬ IsNamedLikeOperand rule hook other)
    (matching : String → Bool) :
    truthOf? (Identifier.named rule) configuration matching hook.1 =
      some (hook.2.holds matching) := by
  have tied := tied_of_not_isNamedLikeOperand separates mem valid apart matching
  rw [← Condition.holds_normalize matching hook.2]
  exact truthOf?_eq_some separates.isName mem (tied.isValid (separates.isName hook mem)
    fun _ _ => rfl)

end

/-- A hook with a nested condition, and one that is named like a path which leads nowhere in
that condition. -/
def pressAndDetour : Configuration where
  hooks := [("press", .composite .and [.leaf ":active",
      .composite .or [.leaf ":focus", .leaf ".touch &"]]),
    ("pressAA", .leaf ":hover")]
  nodup := by decide

/-- A name that continues another one is not yet that of an operand. -/
theorem press_keeps_truth :
    Separates id pressAndDetour ∧
      (∀ other ∈ pressAndDetour.hooks, other.2.isValid = true →
        ¬ IsNamedLikeOperand id other pressAndDetour.hooks[0] ∧
          ¬ IsNamedLikeOperand id pressAndDetour.hooks[0] other) ∧
      truthOf? (Identifier.named id) pressAndDetour
        (fun leaf => leaf == ":active" || leaf == ".touch &") "press" = some true := by
  have separates : Separates id pressAndDetour := ⟨by decide, by decide⟩
  have notOwn : ¬ IsNamedLikeOperand id pressAndDetour.hooks[0] pressAndDetour.hooks[0] := by
    rintro ⟨side, path, node, -, same⟩
    exact ne_nodeId_cons _ side path same
  have apart : ∀ other ∈ pressAndDetour.hooks, other.2.isValid = true →
      ¬ IsNamedLikeOperand id other pressAndDetour.hooks[0] ∧
        ¬ IsNamedLikeOperand id pressAndDetour.hooks[0] other := by
    intro other mem _
    rcases List.mem_cons.1 mem with rfl | mem
    · exact ⟨notOwn, notOwn⟩
    · obtain rfl := List.mem_singleton.1 mem
      constructor
      · rintro ⟨side, path, node, found, same⟩
        have detour : nodeId "press" [.left, .left] = nodeId "press" (side :: path) := same
        rw [← nodeId_injective detour] at found
        cases found
      · rintro ⟨side, path, node, found, -⟩
        cases side <;> cases found
  refine ⟨separates, apart, ?_⟩
  exact named_hook_keeps_truth separates List.mem_cons_self (by decide) apart
    (fun leaf => leaf == ":active" || leaf == ".touch &")

def clashingHooks : Configuration where
  hooks := [("x", .composite .or [.leaf ":a", .leaf ":b"]), ("xA", .leaf ":c")]
  nodup := by decide

/-- Different identifiers do not keep hooks apart: while only the leaf of the second hook
matches, it switches the operand of the first one, whose pair then stands for true although
its condition is false. -/
theorem named_hooks_clash :
    Separates id clashingHooks ∧
      (∀ hook ∈ clashingHooks.hooks, hook.2.isValid = true) ∧
      truthOf? (Identifier.named id) clashingHooks (· == ":c") "x" = some true ∧
      (Condition.composite .or [.leaf ":a", .leaf ":b"]).holds (· == ":c") = false := by
  have separates : Separates id clashingHooks := ⟨by decide, by decide⟩
  refine ⟨separates, by decide, ?_, rfl⟩
  -- The pairs have the values that they would have if the first operand were the other leaf.
  have tied : Tied ((ofConfiguration (Identifier.named id) clashingHooks).stylesheet.cascade
      (· == ":c")) (· == ":c") "x" (.composite .or [.leaf ":c", .leaf ":b"]) :=
    .composite (.leaf (by decide)) (.leaf (by decide)) (by decide)
  have mem : ("x", .composite .or [.leaf ":a", .leaf ":b"]) ∈ clashingHooks.hooks :=
    List.mem_cons_self
  exact truthOf?_eq_some separates.isName mem (tied.isValid (separates.isName _ mem)
    fun _ _ => rfl)

end Compiled

end ConditionalStyles
