import Mathlib.Data.List.Flatten
import Mathlib.Data.List.Nodup
import ConditionalStyles.Proofs.Names
import ConditionalStyles.Proofs.NormalForm

/-!
# The nodes of a condition and what they declare

The stylesheet of a condition in pairs is put together from its nodes.  They are
taken from left to right, those of the operands before the composite built from
them.  Every node declares its pair, a leaf also has a rule, and a composite refers
to the pairs of its two operands, which are declared by then.
-/

namespace ConditionalStyles

open Stylesheet

/-- A node of a condition: the path of operands that leads to it, and what it is. -/
structure Node where
  path : List Side
  condition : Condition

namespace Node

def under (side : Side) (node : Node) : Node where
  path := side :: node.path
  condition := node.condition

/-- The pair of a node, as it is declared for all elements. -/
def declarations (id : String) (node : Node) : List Declaration :=
  match node.condition with
  | .leaf _ => resting (nodeId id node.path)
  | .composite operator _ => combined operator (nodeId id node.path)

def rule? (id : String) (node : Node) : Option Rule :=
  match node.condition with
  | .leaf text => (LeafKind.ofText? text).map fun kind =>
      { leaf := text, kind, declarations := matched (nodeId id node.path) }
  | .composite _ _ => none

def slots (id : String) (node : Node) : List String :=
  [Slot.whenFalse.property (nodeId id node.path),
    Slot.whenTrue.property (nodeId id node.path)]

theorem declarations_under (id : String) (side : Side) (node : Node) :
    (node.under side).declarations id = node.declarations (nodeId id [side]) := by
  simp only [declarations, under, nodeId_nodeId, List.singleton_append]

theorem rule?_under (id : String) (side : Side) (node : Node) :
    (node.under side).rule? id = node.rule? (nodeId id [side]) := by
  simp only [rule?, under, nodeId_nodeId, List.singleton_append]

theorem mem_map_under {nodes : List Node} {side : Side} {path : List Side}
    {condition : Condition} :
    { path, condition } ∈ nodes.map (under side) ↔
      ∃ below, path = side :: below ∧ { path := below, condition } ∈ nodes := by
  rw [List.mem_map]
  constructor
  · rintro ⟨node, mem, same⟩
    obtain ⟨rfl, rfl⟩ := Node.mk.inj same
    exact ⟨node.path, rfl, mem⟩
  · rintro ⟨below, rfl, mem⟩
    exact ⟨_, mem, rfl⟩

theorem map_property_declarations (id : String) (node : Node) :
    (node.declarations id).map Declaration.property = node.slots id := by
  obtain ⟨path, condition⟩ := node
  cases condition with
  | leaf text => rfl
  | composite operator operands => cases operator <;> rfl

theorem mem_slots {id : String} {node : Node} {property : String} :
    property ∈ node.slots id ↔
      ∃ slot : Slot, property = slot.property (nodeId id node.path) := by
  constructor
  · intro mem
    rcases List.mem_cons.1 mem with rfl | mem
    · exact ⟨.whenFalse, rfl⟩
    · exact ⟨.whenTrue, List.mem_singleton.1 mem⟩
  · rintro ⟨slot, rfl⟩
    cases slot <;> simp [slots]

end Node

namespace Condition

/-! ## Nodes and paths -/

def operand? : Condition → Side → Option Condition
  | .composite _ [left, _], .left => some left
  | .composite _ [_, right], .right => some right
  | _, _ => none

/-- What a path of operands leads to. -/
def node? : Condition → List Side → Option Condition
  | condition, [] => some condition
  | condition, side :: path =>
      (condition.operand? side).bind fun operand => operand.node? path

mutual

/-- The nodes of a condition in pairs, in the order in which they are declared. -/
def nodes : Condition → List Node
  | .leaf text => [{ path := [], condition := .leaf text }]
  | .composite operator operands =>
      nodesBelow operands ++ [{ path := [], condition := .composite operator operands }]

def nodesBelow : List Condition → List Node
  | [left, right] =>
      (nodes left).map (Node.under .left) ++ (nodes right).map (Node.under .right)
  | _ => []

end

theorem nodes_composite (operator : Operator) (left right : Condition) :
    (composite operator [left, right]).nodes =
      left.nodes.map (Node.under .left) ++ right.nodes.map (Node.under .right) ++
        [{ path := [], condition := .composite operator [left, right] }] := by
  rw [nodes, nodesBelow]

/-- The nodes are what the paths lead to. -/
theorem mem_nodes {condition : Condition} (paired : condition.Paired) {path : List Side}
    {node : Condition} :
    { path, condition := node } ∈ condition.nodes ↔ condition.node? path = some node := by
  induction paired generalizing path with
  | leaf usable =>
      cases path with
      | nil => simp [nodes, node?, eq_comm]
      | cons side path => simp [nodes, node?, operand?]
  | composite operator leftPaired rightPaired leftIh rightIh =>
      rw [nodes_composite, List.mem_append, List.mem_append, Node.mem_map_under,
        Node.mem_map_under]
      cases path with
      | nil => simp [node?, eq_comm]
      | cons side path =>
          cases side with
          | left => simp [node?, operand?, leftIh]
          | right => simp [node?, operand?, rightIh]

theorem nodup_paths {condition : Condition} (paired : condition.Paired) :
    (condition.nodes.map Node.path).Nodup := by
  induction paired with
  | leaf usable => simp [nodes]
  | @composite operator left right leftPaired rightPaired leftIh rightIh =>
      have paths : (composite operator [left, right]).nodes.map Node.path =
          (left.nodes.map Node.path).map (Side.left :: ·) ++
            (right.nodes.map Node.path).map (Side.right :: ·) ++ [[]] := by
        simp [nodes_composite, Function.comp_def, Node.under]
      rw [paths, List.nodup_append, List.nodup_append]
      refine ⟨⟨leftIh.map (List.cons_injective), rightIh.map (List.cons_injective), ?_⟩,
        List.nodup_singleton _, ?_⟩
      · intro first firstMem second secondMem
        obtain ⟨path, -, rfl⟩ := List.mem_map.1 firstMem
        obtain ⟨path', -, rfl⟩ := List.mem_map.1 secondMem
        simp
      · intro first firstMem second secondMem
        obtain rfl := List.mem_singleton.1 secondMem
        rcases List.mem_append.1 firstMem with mem | mem <;>
          obtain ⟨path, -, rfl⟩ := List.mem_map.1 mem <;>
          exact List.cons_ne_nil _ _

/-- A condition in pairs has one composite less than leaves. -/
theorem length_nodes {condition : Condition} (paired : condition.Paired) :
    condition.nodes.length + 1 = 2 * condition.leaves.length := by
  induction paired with
  | leaf usable => rfl
  | composite operator leftPaired rightPaired leftIh rightIh =>
      simp only [nodes_composite, leaves, leavesOf, List.length_append, List.length_map,
        List.length_singleton, List.length_nil]
      omega

/-- A node of an operand comes before the composite. -/
theorem operand_before {condition : Condition} (paired : condition.Paired)
    {path : List Side} {side : Side} {node operand : Condition}
    (found : condition.node? path = some node) (below : node.operand? side = some operand) :
    List.Sublist [{ path := path ++ [side], condition := operand },
      { path, condition := node }] condition.nodes := by
  induction paired generalizing path with
  | leaf usable =>
      cases path with
      | nil =>
          obtain rfl := Option.some.inj found
          simp [operand?] at below
      | cons side path => simp [node?, operand?] at found
  | @composite operator left right leftPaired rightPaired leftIh rightIh =>
      rw [nodes_composite]
      cases path with
      | nil =>
          obtain rfl := Option.some.inj found
          have inOperands : { path := [side], condition := operand } ∈
              left.nodes.map (Node.under .left) ++ right.nodes.map (Node.under .right) := by
            rw [List.mem_append, Node.mem_map_under, Node.mem_map_under]
            cases side with
            | left => exact Or.inl ⟨[], rfl, (mem_nodes leftPaired).2 below⟩
            | right => exact Or.inr ⟨[], rfl, (mem_nodes rightPaired).2 below⟩
          exact (List.singleton_sublist.2 inOperands).append (List.Sublist.refl [_])
      | cons first path =>
          cases first with
          | left =>
              have inLeft := (leftIh found).map (Node.under .left)
              exact (inLeft.trans (List.sublist_append_left _ _)).trans
                (List.sublist_append_left _ _)
          | right =>
              have inRight := (rightIh found).map (Node.under .right)
              exact (inRight.trans (List.sublist_append_right _ _)).trans
                (List.sublist_append_left _ _)

end Condition

namespace Stylesheet

/-! ## The stylesheet of a condition in pairs -/

theorem initializers_composite (operator : Operator) (id : String)
    (left right : Condition) :
    (ofCondition id (.composite operator [left, right])).initializers =
      (ofCondition (leftId id) left).initializers ++
        (ofCondition (rightId id) right).initializers ++ combined operator id := by
  rw [ofCondition, ofOperands]
  rfl

theorem rules_composite (operator : Operator) (id : String) (left right : Condition) :
    (ofCondition id (.composite operator [left, right])).rules =
      (ofCondition (leftId id) left).rules ++ (ofCondition (rightId id) right).rules := by
  rw [ofCondition, ofOperands]
  exact List.append_nil _

theorem initializers_ofCondition {condition : Condition} (paired : condition.Paired)
    (id : String) :
    (ofCondition id condition).initializers =
      condition.nodes.flatMap (Node.declarations id) := by
  induction paired generalizing id with
  | @leaf text kind usable =>
      simp [ofCondition, ofLeaf, usable, Condition.nodes, Node.declarations]
  | @composite operator left right leftPaired rightPaired leftIh rightIh =>
      have root : Node.declarations id
          { path := [], condition := .composite operator [left, right] } =
            combined operator id := by
        simp only [Node.declarations, nodeId_nil]
      simp only [initializers_composite, leftIh, rightIh, Condition.nodes_composite,
        List.flatMap_append, List.flatMap_map, List.flatMap_singleton,
        Node.declarations_under, root, leftId_eq, rightId_eq]

theorem rules_ofCondition {condition : Condition} (paired : condition.Paired)
    (id : String) :
    (ofCondition id condition).rules = condition.nodes.filterMap (Node.rule? id) := by
  induction paired generalizing id with
  | @leaf text kind usable =>
      simp [ofCondition, ofLeaf, usable, Condition.nodes, Node.rule?]
  | @composite operator left right leftPaired rightPaired leftIh rightIh =>
      have root : Node.rule? id
          { path := [], condition := .composite operator [left, right] } = none := rfl
      simp only [rules_composite, leftIh, rightIh, Condition.nodes_composite,
        List.filterMap_append, List.filterMap_map, Function.comp_def, Node.rule?_under,
        leftId_eq, rightId_eq, List.filterMap_cons, root, List.filterMap_nil, List.append_nil]

end Stylesheet

end ConditionalStyles
