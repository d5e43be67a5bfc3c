import ConditionalStyles.Compiled
import ConditionalStyles.Proofs.StylesheetText

/-!
# The shape of a stylesheet

The stylesheet of a configuration is one universal rule followed by the rules of
leaves, and each of the two is put together from a part for every hook with a valid
condition, in the order of declaration.  The part of a hook depends on its
identifier and the normal form of its condition alone: every node has its pair in
the universal rule, after the pairs that it refers to, and every leaf has a rule.
-/

namespace ConditionalStyles

open Css Stylesheet

/-! ## The text of a node -/

namespace Node

def pairText (id : String) (node : Node) : String :=
  let own := nodeId id node.path
  let left := nodeId id (node.path ++ [.left])
  let right := nodeId id (node.path ++ [.right])
  match node.condition with
  | .leaf _ => "--" ++ own ++ "-0:initial;--" ++ own ++ "-1: ;"
  | .composite .or _ =>
      "--" ++ own ++ "-0:var(--" ++ left ++ "-0,var(--" ++ right ++ "-0));" ++
        "--" ++ own ++ "-1:var(--" ++ left ++ "-1) var(--" ++ right ++ "-1);"
  | .composite .and _ =>
      "--" ++ own ++ "-0:var(--" ++ left ++ "-0) var(--" ++ right ++ "-0);" ++
        "--" ++ own ++ "-1:var(--" ++ left ++ "-1,var(--" ++ right ++ "-1));"

/-- The text that exchanges the values of the pair of a leaf. -/
def exchangedText (id : String) (node : Node) : String :=
  "--" ++ nodeId id node.path ++ "-0: ;--" ++ nodeId id node.path ++ "-1:initial;"

def leaf? (node : Node) : Option String :=
  match node.condition with
  | .leaf text => some text
  | .composite _ _ => none

def ruleText? (id : String) (node : Node) : Option String :=
  node.leaf?.map fun leaf =>
    match LeafKind.ofText? leaf with
    | some .atRule => leaf ++ "\x7b*\x7b" ++ node.exchangedText id ++ "\x7d\x7d"
    | _ => header leaf ++ "\x7b" ++ node.exchangedText id ++ "\x7d"

/-- The declarations that the rule of a leaf is read as. -/
def exchange? (id : String) (node : Node) : Option (String × Entries String) :=
  node.leaf?.map fun leaf =>
    (leaf, [(Slot.whenFalse.property (nodeId id node.path), " "),
      (Slot.whenTrue.property (nodeId id node.path), "initial")])

theorem textOfAll_declarations (id : String) (node : Node) :
    Declaration.textOfAll (node.declarations id) = node.pairText id := by
  obtain ⟨path, condition⟩ := node
  apply String.toList_injective
  cases condition with
  | leaf text =>
      simp [pairText, declarations, resting, pair, Declaration.textOfAll, Declaration.text,
        SlotValue.text, Slot.digitChar, String.join_cons]
  | composite operator operands =>
      cases operator <;>
        simp [pairText, declarations, combined, pair, Declaration.textOfAll, Declaration.text,
          SlotValue.text, Slot.digitChar, String.join_cons, leftId_eq, rightId_eq,
          nodeId_nodeId]

theorem textOfAll_matched (id : String) (node : Node) :
    Declaration.textOfAll (matched (nodeId id node.path)) = node.exchangedText id := by
  apply String.toList_injective
  simp [exchangedText, matched, pair, Declaration.textOfAll, Declaration.text,
    SlotValue.text, Slot.digitChar, String.join_cons]

end Node

namespace Stylesheet

def initializerText (id : String) (normal : Condition) : String :=
  String.join (normal.nodes.map (Node.pairText id))

def ruleText (id : String) (normal : Condition) : String :=
  String.join (normal.nodes.filterMap (Node.ruleText? id))

end Stylesheet

/-! ## The part of a hook -/

theorem Condition.Paired.node? {condition : Condition} (paired : condition.Paired)
    {path : List Side} {node : Condition} (found : condition.node? path = some node) :
    node.Paired := by
  induction paired generalizing path with
  | @leaf text kind usable =>
      cases path with
      | nil =>
          obtain rfl := Option.some.inj found
          exact .leaf usable
      | cons side path => simp [Condition.node?, Condition.operand?] at found
  | composite operator leftPaired rightPaired leftIh rightIh =>
      cases path with
      | nil =>
          obtain rfl := Option.some.inj found
          exact .composite operator leftPaired rightPaired
      | cons side path =>
          cases side with
          | left => exact leftIh found
          | right => exact rightIh found

/-- What stands in a stylesheet for a hook with a valid condition.  The nodes, and with
them the pieces that the text is put together from, are as stated under any identifier; a
reader makes out the pieces if the identifier is a name. -/
structure HookShape (id : String) (condition : Condition) : Prop where
  paired : condition.normalize.Paired
  mem_nodes : ∀ path node, { path, condition := node } ∈ condition.normalize.nodes ↔
    condition.normalize.node? path = some node
  length_nodes : condition.normalize.nodes.length + 1 = 2 * condition.leaves.length
  nodup : (condition.normalize.nodes.flatMap (Node.slots id)).Nodup
  /-- The slots of both operands, to which a composite refers, come before its own. -/
  operand_before : ∀ path operator operands,
    condition.normalize.node? path = some (.composite operator operands) →
      ∀ (side : Side) (slot slot' : Slot), List.Sublist
        [slot.property (nodeId id (path ++ [side])), slot'.property (nodeId id path)]
        (condition.normalize.nodes.flatMap (Node.slots id))
  /-- The universal rule declares the two slots of every node and nothing else. -/
  declares : IsName id →
    (declarations (initializerText id condition.normalize).toList).map Prod.fst =
      condition.normalize.nodes.flatMap (Node.slots id)
  /-- What a value refers to is declared before it. -/
  reference_before : IsName id → ∀ before property value after,
    declarations (initializerText id condition.normalize).toList =
        before ++ (property, value) :: after →
      AtOpenings (OpensOneOf (before.map Prod.fst)) value.toList
  leaves : condition.normalize.nodes.filterMap Node.leaf? = condition.leaves
  length_rules : (condition.normalize.nodes.filterMap (Node.ruleText? id)).length =
    condition.leaves.length
  /-- Every rule exchanges the values of the pair of its leaf. -/
  exchanges : IsName id →
    rules? condition.leaves (ruleText id condition.normalize).toList =
      some (condition.normalize.nodes.filterMap (Node.exchange? id))

/-- The slots of nodes in order are in this order. -/
theorem slots_sublist {id : String} {nodes : List Node} {first second : Node}
    {property property' : String} (before : List.Sublist [first, second] nodes)
    (mem : property ∈ first.slots id) (mem' : property' ∈ second.slots id) :
    List.Sublist [property, property'] (nodes.flatMap (Node.slots id)) := by
  have inFirst : List.Sublist [property] (first.slots id) := List.singleton_sublist.2 mem
  have inSecond : List.Sublist [property'] (second.slots id) :=
    List.singleton_sublist.2 mem'
  refine (inFirst.append inSecond).trans ?_
  simpa using before.flatMap (Node.slots id)

theorem mem_of_sublist_of_nodup {α : Type} {first second : α} {before after : List α}
    (nodup : (before ++ second :: after).Nodup)
    (ordered : List.Sublist [first, second] (before ++ second :: after)) : first ∈ before := by
  obtain ⟨front, back, parts, inFront, inBack⟩ := List.sublist_append_iff.1 ordered
  cases front with
  | cons item front =>
      obtain ⟨rfl, -⟩ := List.cons.inj parts
      exact inFront.subset List.mem_cons_self
  | nil =>
      -- Otherwise the item would come once more behind the cut.
      obtain rfl : [first, second] = back := parts
      have later : second ∈ after := by
        cases inBack with
        | cons _ below => exact below.subset (List.mem_cons_of_mem _ List.mem_cons_self)
        | cons_cons _ below => exact below.subset List.mem_cons_self
      exact absurd later (List.nodup_cons.1 (List.nodup_append.1 nodup).2.1).1

theorem join_map_flatMap {α β : Type} (items : List α) (parts : α → List β)
    (text : β → String) :
    String.join ((items.flatMap parts).map text) =
      String.join (items.map fun item => String.join ((parts item).map text)) := by
  induction items with
  | nil => rfl
  | cons item rest ih =>
      rw [List.flatMap_cons, List.map_append, String.join_append, List.map_cons,
        String.join_cons, ih]

section

variable {condition : Condition} (paired : condition.Paired) (id : String)
include paired

theorem map_property_initializers :
    (ofCondition id condition).initializers.map Declaration.property =
      condition.nodes.flatMap (Node.slots id) := by
  rw [initializers_ofCondition paired, List.map_flatMap]
  simp only [Node.map_property_declarations]

theorem nodup_slots : (condition.nodes.flatMap (Node.slots id)).Nodup := by
  rw [List.nodup_flatMap]
  constructor
  · intro node _
    simp [Node.slots, Slot.property_inj]
  · -- Different nodes have different paths, and so different slots.
    have distinct := List.pairwise_map.1 (Condition.nodup_paths paired)
    refine distinct.imp fun {first second} different property mem mem' => different ?_
    obtain ⟨slot, rfl⟩ := Node.mem_slots.1 mem
    obtain ⟨slot', same⟩ := Node.mem_slots.1 mem'
    exact nodeId_injective (Slot.property_inj.1 same).2

theorem operand_slots_before {path : List Side} {operator : Operator}
    {operands : List Condition}
    (found : condition.node? path = some (.composite operator operands)) (side : Side)
    (slot slot' : Slot) :
    List.Sublist [slot.property (nodeId id (path ++ [side])), slot'.property (nodeId id path)]
      (condition.nodes.flatMap (Node.slots id)) := by
  have below : ∃ operand,
      (Condition.composite operator operands).operand? side = some operand := by
    cases paired.node? found with
    | @composite _ left right =>
        cases side with
        | left => exact ⟨left, rfl⟩
        | right => exact ⟨right, rfl⟩
  obtain ⟨operand, below⟩ := below
  exact slots_sublist (Condition.operand_before paired found below)
    (Node.mem_slots.2 ⟨slot, rfl⟩) (Node.mem_slots.2 ⟨slot', rfl⟩)

theorem map_rules {α : Type} (part : Rule → α) {part' : Node → Option α}
    (ofLeaf : ∀ path text kind, LeafKind.ofText? text = some kind →
      part' { path, condition := .leaf text } =
        some (part { leaf := text, kind, declarations := matched (nodeId id path) }))
    (ofComposite : ∀ path operator operands,
      part' { path, condition := .composite operator operands } = none) :
    (ofCondition id condition).rules.map part = condition.nodes.filterMap part' := by
  rw [rules_ofCondition paired, List.map_filterMap]
  refine List.filterMap_congr fun ⟨path, node⟩ mem => ?_
  cases paired.node? ((Condition.mem_nodes paired).1 mem) with
  | @leaf text kind usable =>
      rw [ofLeaf path text kind usable]
      simp only [Node.rule?, usable, Option.map_some]
  | composite operator leftPaired rightPaired => exact (ofComposite path _ _).symm

theorem map_leaf_rules :
    (ofCondition id condition).rules.map Rule.leaf = condition.leaves := by
  induction paired generalizing id with
  | @leaf text kind usable => simp [ofCondition, ofLeaf, usable, Condition.leaves]
  | @composite operator left right leftPaired rightPaired leftIh rightIh =>
      rw [rules_composite, List.map_append, leftIh, rightIh]
      simp [Condition.leaves, Condition.leavesOf]

theorem initializerText_eq :
    initializerText id condition =
      Declaration.textOfAll (ofCondition id condition).initializers := by
  rw [initializers_ofCondition paired, Declaration.textOfAll, join_map_flatMap]
  exact congrArg String.join
    (List.map_congr_left fun node _ => (Node.textOfAll_declarations id node).symm)

theorem map_text_rules :
    (ofCondition id condition).rules.map Rule.text =
      condition.nodes.filterMap (Node.ruleText? id) := by
  refine map_rules paired id Rule.text (fun path text kind usable => ?_) fun _ _ _ => rfl
  have exchanged := Node.textOfAll_matched id { path, condition := .leaf text }
  have text_eq : Node.ruleText? id { path, condition := .leaf text } =
      some (match LeafKind.ofText? text with
        | some .atRule => text ++ "\x7b*\x7b" ++
            Node.exchangedText id { path, condition := .leaf text } ++ "\x7d\x7d"
        | _ => header text ++ "\x7b" ++
            Node.exchangedText id { path, condition := .leaf text } ++ "\x7d") := rfl
  rw [text_eq, ← exchanged, usable, Rule.header_eq_universal]
  obtain ⟨rfl, -⟩ | ⟨rfl, unmentioned, -⟩ | ⟨rfl, unmentioned, -⟩ :=
    LeafKind.cases_of_ofText? usable
  · rfl
  · rw [Rule.universal_eq_self unmentioned]
    rfl
  · apply congrArg some
    apply String.toList_injective
    simp [Rule.text, Rule.block]

theorem reference_before {before after : List Declaration} {declaration : Declaration}
    (split : (ofCondition id condition).initializers = before ++ declaration :: after)
    {reference : String} (refers : reference ∈ declaration.value.references) :
    reference ∈ before.map Declaration.property := by
  have slots := map_property_initializers paired id
  rw [split, List.map_append, List.map_cons] at slots
  refine mem_of_sublist_of_nodup (slots ▸ nodup_slots paired id) ?_
  rw [slots]
  have mem : declaration ∈ condition.nodes.flatMap (Node.declarations id) := by
    rw [← initializers_ofCondition paired, split]
    exact List.mem_append_right _ List.mem_cons_self
  obtain ⟨⟨path, node⟩, nodeMem, mem⟩ := List.mem_flatMap.1 mem
  obtain ⟨operator, operands, rfl, side, slot, rfl⟩ :=
    Node.exists_operand_of_reference mem refers
  have own := List.mem_map_of_mem (f := Declaration.property) mem
  rw [Node.map_property_declarations, Node.mem_slots] at own
  obtain ⟨slot', own⟩ := own
  rw [own]
  exact operand_slots_before paired id ((Condition.mem_nodes paired).1 nodeMem) side slot slot'

end

theorem hookShape {condition : Condition} (valid : condition.isValid = true)
    (id : String) : HookShape id condition := by
  have paired := Condition.paired_normalize valid
  have leaves := map_leaf_rules paired id
  rw [Condition.leaves_normalize] at leaves
  have initializers (isName : IsName id) :
      declarations (initializerText id condition.normalize).toList =
        (ofCondition id condition.normalize).initializers.map Declaration.entry := by
    rw [initializerText_eq paired]
    exact Declaration.declarations_textOfAll (isReadable_ofCondition paired isName).initializers
  exact {
    paired
    mem_nodes := fun _ _ => Condition.mem_nodes paired
    length_nodes := by
      rw [Condition.length_nodes paired, Condition.leaves_normalize]
    nodup := nodup_slots paired id
    operand_before := fun _ _ _ => operand_slots_before paired id
    declares := fun isName => by
      rw [initializers isName, List.map_map, ← map_property_initializers paired]
      rfl
    reference_before := fun isName before property value after split => by
      rw [initializers isName] at split
      obtain ⟨earlier, rest, cut, rfl, rest_eq⟩ := List.map_eq_append_iff.1 split
      obtain ⟨declaration, later, rfl, entry_eq, -⟩ := List.map_eq_cons_iff.1 rest_eq
      obtain ⟨rfl, rfl⟩ := Prod.mk.inj entry_eq
      have named := (isReadable_ofCondition paired isName).initializers declaration
        (cut ▸ List.mem_append_right _ List.mem_cons_self)
      refine (SlotValue.atOpenings_text named.references).mono fun _ opens => opens.mono ?_
      intro reference refers
      rw [List.map_map]
      exact reference_before paired id cut refers
    leaves := by
      rw [← leaves]
      exact (map_rules paired id Rule.leaf (fun _ _ _ _ => rfl) fun _ _ _ => rfl).symm
    length_rules := by
      rw [← map_text_rules paired, ← leaves, List.length_map, List.length_map]
    exchanges := fun isName => by
      rw [ruleText, ← map_text_rules paired, ← leaves,
        Rule.rules?_text (isReadable_ofCondition paired isName).rules]
      exact congrArg some
        (map_rules paired id Rule.entry (fun _ _ _ _ => rfl) fun _ _ _ => rfl) }

/-! ## The text of a stylesheet -/

namespace Configuration

def validHooks (configuration : Configuration) : List (String × Condition) :=
  configuration.hooks.filter fun hook => hook.2.isValid

/-- The leaves of the valid hooks, for which a stylesheet has rules. -/
def validLeaves (configuration : Configuration) : List String :=
  configuration.validHooks.flatMap fun hook => hook.2.leaves

end Configuration

namespace Compiled

variable (scheme : Identifier.Scheme) (configuration : Configuration)

/-- What is put together from the stylesheets of hooks comes from the valid ones. -/
theorem flatMap_stylesheetOfHook {α : Type} (parts : Stylesheet → List α)
    (nothing : parts .empty = []) :
    (configuration.hooks.map fun hook =>
        stylesheetOfHook scheme hook.1 hook.2).flatMap parts =
      configuration.validHooks.flatMap fun hook =>
        parts (ofCondition (scheme hook.1 hook.2.normalize) hook.2.normalize) := by
  rw [Configuration.validHooks, List.flatMap_map]
  induction configuration.hooks with
  | nil => rfl
  | cons hook rest ih =>
      rw [List.flatMap_cons, ih]
      rw [stylesheetOfHook, Condition.isValid_normalize, List.filter_cons]
      cases valid : hook.2.isValid with
      | true => simp
      | false => simp [nothing]

theorem initializers_ofConfiguration :
    (ofConfiguration scheme configuration).stylesheet.initializers =
      configuration.validHooks.flatMap fun hook =>
        (ofCondition (scheme hook.1 hook.2.normalize) hook.2.normalize).initializers :=
  flatMap_stylesheetOfHook scheme configuration Stylesheet.initializers rfl

theorem rules_ofConfiguration :
    (ofConfiguration scheme configuration).stylesheet.rules =
      configuration.validHooks.flatMap fun hook =>
        (ofCondition (scheme hook.1 hook.2.normalize) hook.2.normalize).rules :=
  flatMap_stylesheetOfHook scheme configuration Stylesheet.rules rfl

theorem paired_of_mem_validHooks {configuration : Configuration} {hook : String × Condition}
    (mem : hook ∈ configuration.validHooks) : hook.2.normalize.Paired :=
  Condition.paired_normalize (List.mem_filter.1 mem).2

theorem cssText_ofConfiguration :
    (ofConfiguration scheme configuration).cssText =
      "*\x7b" ++ String.join (configuration.validHooks.map fun hook =>
        initializerText (scheme hook.1 hook.2.normalize) hook.2.normalize) ++ "\x7d" ++
      String.join (configuration.validHooks.map fun hook =>
        ruleText (scheme hook.1 hook.2.normalize) hook.2.normalize) := by
  have text_eq : (ofConfiguration scheme configuration).cssText =
      "*\x7b" ++ Declaration.textOfAll
        (ofConfiguration scheme configuration).stylesheet.initializers ++ "\x7d" ++
      String.join ((ofConfiguration scheme configuration).stylesheet.rules.map Rule.text) :=
    rfl
  rw [text_eq, initializers_ofConfiguration, rules_ofConfiguration, Declaration.textOfAll,
    join_map_flatMap, join_map_flatMap]
  refine congrArg₂ (fun initializers rules => "*\x7b" ++ initializers ++ "\x7d" ++ rules)
    (congrArg String.join (List.map_congr_left fun hook mem => ?_))
    (congrArg String.join (List.map_congr_left fun hook mem => ?_))
  · exact (initializerText_eq (paired_of_mem_validHooks mem) _).symm
  · rw [ruleText, map_text_rules (paired_of_mem_validHooks mem)]

theorem map_leaf_rules_ofConfiguration :
    (ofConfiguration scheme configuration).stylesheet.rules.map Rule.leaf =
      configuration.validLeaves := by
  rw [rules_ofConfiguration, List.map_flatMap]
  refine List.flatMap_congr fun hook mem => ?_
  rw [map_leaf_rules (paired_of_mem_validHooks mem), Condition.leaves_normalize]

/-- The text of a stylesheet is read back if its hooks are identified by names. -/
theorem ofText?_cssText (named : ∀ hook ∈ configuration.validHooks,
      IsName (scheme hook.1 hook.2.normalize)) :
    Sheet.ofText? configuration.validLeaves (ofConfiguration scheme configuration).cssText =
      some (ofConfiguration scheme configuration).stylesheet.sheet := by
  have readable : ∀ hook ∈ configuration.validHooks,
      (ofCondition (scheme hook.1 hook.2.normalize) hook.2.normalize).IsReadable :=
    fun hook mem => isReadable_ofCondition (paired_of_mem_validHooks mem) (named hook mem)
  rw [← map_leaf_rules_ofConfiguration scheme]
  apply ofText?_text
  constructor
  · intro declaration mem
    rw [initializers_ofConfiguration, List.mem_flatMap] at mem
    obtain ⟨hook, hookMem, mem⟩ := mem
    exact (readable hook hookMem).initializers declaration mem
  · intro rule mem
    rw [rules_ofConfiguration, List.mem_flatMap] at mem
    obtain ⟨hook, hookMem, mem⟩ := mem
    exact (readable hook hookMem).rules rule mem

theorem isActive_ofConfiguration (name : String) :
    (ofConfiguration scheme configuration).isActive name =
      (configuration.get? name).any Condition.isValid := by
  have lookup (hooks : Entries Condition) :
      Entries.get? (hooks.map fun entry => (entry.1, hook scheme entry.1 entry.2)) name =
        (Entries.get? hooks name).map (hook scheme name) := by
    induction hooks with
    | nil => rfl
    | cons entry rest ih =>
        obtain ⟨key, condition⟩ := entry
        rw [List.map_cons, Entries.get?_cons, Entries.get?_cons, ih]
        split
        · rename_i same
          rw [same, Option.map_some]
        · rfl
  have found : (ofConfiguration scheme configuration).hooks.get? name =
      (configuration.get? name).map (hook scheme name) := lookup configuration.hooks
  rw [isActive, found]
  cases configuration.get? name with
  | none => rfl
  | some condition => exact Condition.isValid_normalize condition

theorem ids_ofConfiguration :
    (ofConfiguration scheme configuration).ids =
      configuration.hooks.map fun hook =>
        (hook.1, scheme hook.1 hook.2.normalize, hook.2.isValid) := by
  rw [ids, ofConfiguration, List.map_map]
  refine List.map_congr_left fun hook _ => ?_
  rw [← Condition.isValid_normalize]
  rfl

/-- The stylesheet is the universal rule and the rules of leaves, both put together
from the texts of the nodes of hooks with valid conditions, and these parts have the
shape of the conditions.  So hooks with other conditions do not show in it.  A hook is
active exactly if its condition is valid as it is configured, and all hooks are listed
in the order of declaration. -/
theorem stylesheet_shape :
    (ofConfiguration scheme configuration).cssText =
      "*\x7b" ++ String.join (configuration.validHooks.map fun hook =>
        initializerText (scheme hook.1 hook.2.normalize) hook.2.normalize) ++ "\x7d" ++
      String.join (configuration.validHooks.map fun hook =>
        ruleText (scheme hook.1 hook.2.normalize) hook.2.normalize) ∧
    (∀ hook ∈ configuration.validHooks,
      HookShape (scheme hook.1 hook.2.normalize) hook.2) ∧
    (∀ other : Configuration, other.validHooks = configuration.validHooks →
      (ofConfiguration scheme other).cssText =
        (ofConfiguration scheme configuration).cssText) ∧
    (∀ name, (ofConfiguration scheme configuration).isActive name =
      (configuration.get? name).any Condition.isValid) ∧
    (ofConfiguration scheme configuration).ids =
      configuration.hooks.map fun hook =>
        (hook.1, scheme hook.1 hook.2.normalize, hook.2.isValid) := by
  refine ⟨cssText_ofConfiguration scheme configuration, ?_, ?_,
    isActive_ofConfiguration scheme configuration, ids_ofConfiguration scheme configuration⟩
  · intro hook mem
    exact hookShape (List.mem_filter.1 mem).2 _
  · intro other same
    rw [cssText_ofConfiguration, cssText_ofConfiguration, same]

def broken : Condition :=
  .composite .or [.leaf ":hover", .leaf "focus"]

/-- A valid condition, one of whose composites has three operands. -/
def pressed : Condition :=
  .composite .and [.leaf ":active",
    .composite .or [.leaf ":focus", .leaf "@media print", .leaf ".touch &"]]

def brokenAndPressed : Configuration where
  hooks := [("broken", broken), ("pressed", pressed)]
  nodup := by decide

def pressedAlone : Configuration where
  hooks := [("pressed", pressed)]
  nodup := by decide

/-- The broken hook does not show, and the other one has its shape. -/
theorem stylesheet_shape_pressed :
    ("pressed", pressed) ∈ brokenAndPressed.validHooks ∧
      pressedAlone.validHooks = brokenAndPressed.validHooks ∧
      HookShape "pressed" pressed ∧
      (ofConfiguration (Identifier.named id) pressedAlone).cssText =
        (ofConfiguration (Identifier.named id) brokenAndPressed).cssText ∧
      (ofConfiguration (Identifier.named id) brokenAndPressed).isActive "broken" = false ∧
      (ofConfiguration (Identifier.named id) brokenAndPressed).cssText =
        "*\x7b--pressedA-0:initial;--pressedA-1: ;" ++
        "--pressedBA-0:initial;--pressedBA-1: ;" ++
        "--pressedBBA-0:initial;--pressedBBA-1: ;--pressedBBB-0:initial;--pressedBBB-1: ;" ++
        "--pressedBB-0:var(--pressedBBA-0,var(--pressedBBB-0));" ++
        "--pressedBB-1:var(--pressedBBA-1) var(--pressedBBB-1);" ++
        "--pressedB-0:var(--pressedBA-0,var(--pressedBB-0));" ++
        "--pressedB-1:var(--pressedBA-1) var(--pressedBB-1);" ++
        "--pressed-0:var(--pressedA-0) var(--pressedB-0);" ++
        "--pressed-1:var(--pressedA-1,var(--pressedB-1));\x7d" ++
        ":active\x7b--pressedA-0: ;--pressedA-1:initial;\x7d" ++
        ":focus\x7b--pressedBA-0: ;--pressedBA-1:initial;\x7d" ++
        "@media print\x7b*\x7b--pressedBBA-0: ;--pressedBBA-1:initial;\x7d\x7d" ++
        ".touch *\x7b--pressedBBB-0: ;--pressedBBB-1:initial;\x7d" := by
  have invalid : broken.isValid = false := by decide
  have valid : pressed.isValid = true := by decide
  have mem : ("pressed", pressed) ∈ brokenAndPressed.validHooks := by
    simp [Configuration.validHooks, brokenAndPressed, valid]
  have same : pressedAlone.validHooks = brokenAndPressed.validHooks := by
    simp [Configuration.validHooks, pressedAlone, brokenAndPressed, valid, invalid]
  have inactive : (brokenAndPressed.get? "broken").any Condition.isValid = false := by
    simp [Configuration.get?, brokenAndPressed, invalid]
  obtain ⟨text, shapes, unchanged, active, -⟩ :=
    stylesheet_shape (Identifier.named id) brokenAndPressed
  refine ⟨mem, same, shapes ("pressed", pressed) mem, unchanged pressedAlone same, ?_, ?_⟩
  · rw [active, inactive]
  · rw [text]
    decide +kernel

end Compiled

end ConditionalStyles
