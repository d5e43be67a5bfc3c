import ConditionalStyles.Proofs.Cascade
import ConditionalStyles.Proofs.NormalForm

/-!
# The truth that toggle pairs stand for

A stylesheet computes its conditions: when some leaves match, the pair of every
node is valid in the slot that says whether the node is true.  The argument has
two parts.  A property that is declared in one part of a stylesheet takes its value
from that part alone.  So every node keeps the value of its own rule, whatever
stands around it, and then the truth goes up from the leaves to the root.
-/

namespace ConditionalStyles

open Css

namespace Stylesheet

/-! ## Declarations in force -/

def inForce (sheet : Stylesheet) (matching : String → Bool) : List Declaration :=
  sheet.initializers ++
    (sheet.rules.filter fun rule => matching rule.leaf).flatMap Rule.declarations

/-- The value of every property, where a declaration overrides earlier ones. -/
def cascade (sheet : Stylesheet) (matching : String → Bool) : Entries String :=
  Entries.ofList ((sheet.inForce matching).map fun declaration =>
    (declaration.property, declaration.value.text))

def properties (sheet : Stylesheet) : List String :=
  (sheet.initializers ++ sheet.rules.flatMap Rule.declarations).map Declaration.property

def lastText? (declarations : List Declaration) (property : String) : Option String :=
  Entries.get? (declarations.map fun declaration =>
    (declaration.property, declaration.value.text)).reverse property

@[simp] theorem lastText?_nil (property : String) : lastText? [] property = none := rfl

theorem lastText?_append (first second : List Declaration) (property : String) :
    lastText? (first ++ second) property =
      (lastText? second property).or (lastText? first property) := by
  simp only [lastText?, List.map_append, List.reverse_append, Entries.get?_append]

theorem lastText?_cons (declaration : Declaration) (rest : List Declaration)
    (property : String) :
    lastText? (declaration :: rest) property =
      (lastText? rest property).or
        (if declaration.property = property then some declaration.value.text else none) := by
  rw [← List.singleton_append, lastText?_append]
  simp [lastText?]

theorem lastText?_eq_none {declarations : List Declaration} {property : String}
    (absent : property ∉ declarations.map Declaration.property) :
    lastText? declarations property = none := by
  rw [lastText?, Entries.get?_eq_none_iff]
  simpa [Entries.keys, Function.comp_def] using absent

theorem get?_cascade (sheet : Stylesheet) (matching : String → Bool) (property : String) :
    (sheet.cascade matching).get? property =
      (lastText? ((sheet.rules.filter fun rule => matching rule.leaf).flatMap
        Rule.declarations) property).or (lastText? sheet.initializers property) := by
  rw [cascade, Entries.get?_ofList]
  exact lastText?_append _ _ _

/-! ## Parts of a stylesheet -/

section

variable {α : Type} {parts : List α} {declared : α → List Declaration} {property : String}
  {value : Option String}

theorem lastText?_flatMap_or_none
    (same : ∀ part ∈ parts, lastText? (declared part) property = value ∨
      lastText? (declared part) property = none) :
    lastText? (parts.flatMap declared) property = value ∨
      lastText? (parts.flatMap declared) property = none := by
  induction parts with
  | nil => exact Or.inr rfl
  | cons part rest ih =>
      rw [List.flatMap_cons, lastText?_append]
      have later := ih fun other mem => same other (List.mem_cons_of_mem _ mem)
      have first := same part List.mem_cons_self
      rcases later with later | later
      · rcases first with first | first <;> simp [later, first]
      · rcases first with first | first <;> simp [later, first]

theorem lastText?_flatMap
    (same : ∀ part ∈ parts, lastText? (declared part) property = value ∨
      lastText? (declared part) property = none)
    (present : ∃ part ∈ parts, lastText? (declared part) property = value) :
    lastText? (parts.flatMap declared) property = value := by
  induction parts with
  | nil => simp at present
  | cons part rest ih =>
      rw [List.flatMap_cons, lastText?_append]
      have sameRest : ∀ other ∈ rest, lastText? (declared other) property = value ∨
          lastText? (declared other) property = none :=
        fun other mem => same other (List.mem_cons_of_mem _ mem)
      obtain ⟨witness, mem, found⟩ := present
      rcases List.mem_cons.1 mem with rfl | mem
      · rcases lastText?_flatMap_or_none sameRest with later | later <;> simp [later, found]
      · rw [ih sameRest ⟨witness, mem, found⟩]
        rcases same part List.mem_cons_self with first | first <;> simp [first]

end

/-- The last value of a property among some of the declarations of several
stylesheets, if one of them alone declares it. -/
theorem lastText?_join {sheets : List Stylesheet} {sheet : Stylesheet}
    (mem : sheet ∈ sheets) {property : String}
    (apart : ∀ other ∈ sheets, other = sheet ∨ property ∉ other.properties)
    (declared : Stylesheet → List Declaration)
    (within : ∀ other, ∀ declaration ∈ declared other,
      declaration.property ∈ other.properties) :
    lastText? (sheets.flatMap declared) property =
      lastText? (declared sheet) property := by
  refine lastText?_flatMap ?_ ⟨sheet, mem, rfl⟩
  intro other otherMem
  rcases apart other otherMem with rfl | absent
  · exact Or.inl rfl
  · refine Or.inr (lastText?_eq_none fun listed => absent ?_)
    obtain ⟨declaration, declarationMem, rfl⟩ := List.mem_map.1 listed
    exact within other declaration declarationMem

/-- A property takes its value from one part of a stylesheet if every other part is
either the same or does not declare it. -/
theorem get?_cascade_join {sheets : List Stylesheet} {sheet : Stylesheet}
    (mem : sheet ∈ sheets) {property : String}
    (apart : ∀ other ∈ sheets, other = sheet ∨ property ∉ other.properties)
    (matching : String → Bool) :
    ((join sheets).cascade matching).get? property =
      (sheet.cascade matching).get? property := by
  have inInitializers := lastText?_join mem apart initializers
    fun other declaration inOther => List.mem_map_of_mem (List.mem_append_left _ inOther)
  have inRules : lastText? (sheets.flatMap fun sheet =>
        (sheet.rules.filter fun rule => matching rule.leaf).flatMap Rule.declarations)
          property =
      lastText? ((sheet.rules.filter fun rule => matching rule.leaf).flatMap
        Rule.declarations) property := by
    refine lastText?_join mem apart _ fun other declaration inOther => ?_
    obtain ⟨rule, ruleMem, inRule⟩ := List.mem_flatMap.1 inOther
    have ruleMem := (List.mem_filter.1 ruleMem).1
    exact List.mem_map_of_mem
      (List.mem_append_right _ (List.mem_flatMap.2 ⟨rule, ruleMem, inRule⟩))
  rw [get?_cascade, get?_cascade, join, List.filter_flatMap, List.flatMap_assoc,
    inInitializers, inRules]

/-! ## The properties of a condition -/

theorem exists_slot_of_mem_pair {id : String} {whenFalse whenTrue : SlotValue}
    {declaration : Declaration} (mem : declaration ∈ pair id whenFalse whenTrue) :
    ∃ slot : Slot, declaration.property = slot.property id := by
  rcases List.mem_cons.1 mem with rfl | mem
  · exact ⟨.whenFalse, rfl⟩
  · obtain rfl := List.mem_singleton.1 mem
    exact ⟨.whenTrue, rfl⟩

theorem exists_slot_of_mem_combined {operator : Operator} {id : String}
    {declaration : Declaration} (mem : declaration ∈ combined operator id) :
    ∃ slot : Slot, declaration.property = slot.property id := by
  cases operator <;> exact exists_slot_of_mem_pair mem

theorem properties_append (first second : Stylesheet) {property : String} :
    property ∈ (first ++ second).properties ↔
      property ∈ first.properties ∨ property ∈ second.properties := by
  have parts : first ++ second =
      { initializers := first.initializers ++ second.initializers
        rules := first.rules ++ second.rules } := rfl
  simp only [parts, properties, List.flatMap_append, List.map_append, List.mem_append]
  exact or_or_or_comm

theorem ofLeaf_of_usable {id text : String} {kind : LeafKind}
    (usable : LeafKind.ofText? text = some kind) :
    ofLeaf id text =
      { initializers := resting id
        rules := [{ leaf := text, kind, declarations := matched id }] } := by
  rw [ofLeaf, usable]

theorem exists_path_of_mem_properties {id : String} {condition : Condition}
    (paired : condition.Paired) {property : String}
    (mem : property ∈ (ofCondition id condition).properties) :
    ∃ (path : List Side) (slot : Slot), property = slot.property (nodeId id path) := by
  induction paired generalizing id with
  | @leaf text kind usable =>
      rw [ofCondition, ofLeaf_of_usable usable] at mem
      obtain ⟨declaration, declarationMem, rfl⟩ := List.mem_map.1 mem
      have inPair : declaration ∈ resting id ∨ declaration ∈ matched id := by
        simpa using declarationMem
      have slots : ∃ slot : Slot, declaration.property = slot.property id := by
        rcases inPair with inPair | inPair <;> exact exists_slot_of_mem_pair inPair
      obtain ⟨slot, named⟩ := slots
      exact ⟨[], slot, by rw [named, nodeId_nil]⟩
  | @composite operator left right leftPaired rightPaired leftIh rightIh =>
      rw [ofCondition, ofOperands, properties_append, properties_append] at mem
      rcases mem with (inLeft | inRight) | own
      · obtain ⟨path, slot, named⟩ := leftIh inLeft
        rw [leftId_eq, nodeId_nodeId] at named
        exact ⟨_, slot, named⟩
      · obtain ⟨path, slot, named⟩ := rightIh inRight
        rw [rightId_eq, nodeId_nodeId] at named
        exact ⟨_, slot, named⟩
      · obtain ⟨declaration, declarationMem, rfl⟩ := List.mem_map.1 own
        obtain ⟨slot, named⟩ := exists_slot_of_mem_combined (by simpa using declarationMem)
        exact ⟨[], slot, by rw [named, nodeId_nil]⟩

/-! ## Nodes that keep their values -/

/-- Every node of a condition has the value that its own rule gives it. -/
inductive Tied (values : Entries String) (matching : String → Bool) :
    String → Condition → Prop where
  | leaf {id text : String}
      (own : ∀ declaration ∈ if matching text then matched id else resting id,
        values.get? declaration.property = some declaration.value.text) :
      Tied values matching id (.leaf text)
  | composite {operator : Operator} {id : String} {left right : Condition}
      (leftTied : Tied values matching (leftId id) left)
      (rightTied : Tied values matching (rightId id) right)
      (own : ∀ declaration ∈ combined operator id,
        values.get? declaration.property = some declaration.value.text) :
      Tied values matching id (.composite operator [left, right])

/-- Whether two cascades give the slots of a node and of the nodes below it the
same values. -/
def AgreeBelow (values values' : Entries String) (id : String) : Prop :=
  ∀ (path : List Side) (slot : Slot),
    values'.get? (slot.property (nodeId id path)) =
      values.get? (slot.property (nodeId id path))

namespace AgreeBelow

variable {values values' : Entries String} {id : String}

theorem own (agree : AgreeBelow values values' id) (slot : Slot) :
    values'.get? (slot.property id) = values.get? (slot.property id) := by
  simpa using agree [] slot

theorem below (agree : AgreeBelow values values' id) (path : List Side) :
    AgreeBelow values values' (nodeId id path) := by
  intro path' slot
  rw [nodeId_nodeId]
  exact agree _ slot

theorem declarations (agree : AgreeBelow values values' id)
    {declarations : List Declaration}
    (slots : ∀ declaration ∈ declarations,
      ∃ slot : Slot, declaration.property = slot.property id)
    (declared : ∀ declaration ∈ declarations,
      values.get? declaration.property = some declaration.value.text) :
    ∀ declaration ∈ declarations,
      values'.get? declaration.property = some declaration.value.text := by
  intro declaration mem
  obtain ⟨slot, named⟩ := slots declaration mem
  rw [← declared declaration mem, named]
  exact agree.own slot

end AgreeBelow

theorem Tied.congr {values values' : Entries String} {matching : String → Bool}
    {id : String} {condition : Condition} (agree : AgreeBelow values values' id)
    (tied : Tied values matching id condition) : Tied values' matching id condition := by
  induction tied with
  | @leaf id text own =>
      refine .leaf (agree.declarations (fun declaration mem => ?_) own)
      split at mem <;> exact exists_slot_of_mem_pair mem
  | @composite operator id left right leftTied rightTied own leftIh rightIh =>
      exact .composite (leftIh (agree.below [.left])) (rightIh (agree.below [.right]))
        (agree.declarations (fun _ => exists_slot_of_mem_combined) own)

/-! ## From the leaves to the root -/

/-- A node is identified otherwise than the nodes below it. -/
theorem ne_nodeId_cons (id : String) (side : Side) (path : List Side) :
    id ≠ nodeId id (side :: path) := by
  intro same
  cases nodeId_injective ((nodeId_nil id).trans same)

/-- While a slot of a node is resolved, the nodes below keep their values. -/
theorem AgreeBelow.erase {values values' : Entries String} {id : String}
    (agree : AgreeBelow values values' id) (slot : Slot) (side : Side) :
    AgreeBelow values (values'.erase (slot.property id)) (nodeId id [side]) := by
  intro path other
  have apart : slot.property id ≠ other.property (nodeId (nodeId id [side]) path) := by
    rw [ne_eq, Slot.property_inj, nodeId_nodeId]
    exact fun same => ne_nodeId_cons id side path same.2
  rw [Entries.get?_erase, if_neg apart]
  exact agree.below [side] path other

theorem AgreeBelow.pair {values values' : Entries String} {id : String}
    (agree : AgreeBelow values values' id) {whenFalse whenTrue : SlotValue}
    (own : ∀ declaration ∈ pair id whenFalse whenTrue,
      values.get? declaration.property = some declaration.value.text) :
    values'.get? (Slot.whenFalse.property id) = some whenFalse.text ∧
      values'.get? (Slot.whenTrue.property id) = some whenTrue.text := by
  have kept := agree.declarations (fun _ => exists_slot_of_mem_pair) own
  exact ⟨kept _ List.mem_cons_self, kept _ (List.mem_cons_of_mem _ List.mem_cons_self)⟩

/-- The two slots of a tied node are valid according to the truth of its condition,
in every cascade that agrees about the nodes below. -/
theorem Tied.isValid {values : Entries String} {matching : String → Bool} {id : String}
    {condition : Condition} (tied : Tied values matching id condition)
    (isName : IsName id) {values' : Entries String}
    (agree : AgreeBelow values values' id) :
    isValid values' (Slot.whenFalse.property id) = condition.holds matching ∧
      isValid values' (Slot.whenTrue.property id) = !condition.holds matching := by
  induction tied generalizing values' with
  | @leaf id text own =>
      rw [Condition.holds]
      cases truth : matching text with
      | true =>
          rw [truth, if_pos rfl] at own
          obtain ⟨whenFalse, whenTrue⟩ := agree.pair own
          exact ⟨isValid_blank whenFalse, isValid_invalid whenTrue⟩
      | false =>
          rw [truth, if_neg Bool.false_ne_true] at own
          obtain ⟨whenFalse, whenTrue⟩ := agree.pair own
          exact ⟨isValid_invalid whenFalse, isValid_blank whenTrue⟩
  | @composite operator id left right leftTied rightTied own leftIh rightIh =>
      have leftName : IsName (leftId id) := isName.nodeId [.left]
      have rightName : IsName (rightId id) := isName.nodeId [.right]
      -- The cascade shrinks on the way down, and the operands keep their values.
      have leftTruth (slot : Slot) := leftIh leftName (agree.erase slot .left)
      have rightTruth (slot : Slot) := rightIh rightName (agree.erase slot .right)
      cases operator with
      | or =>
          obtain ⟨whenFalse, whenTrue⟩ := agree.pair own
          rw [isValid_either (leftName.property _) (rightName.property _) whenFalse,
            isValid_both (leftName.property _) (rightName.property _) whenTrue,
            (leftTruth _).1, (rightTruth _).1, (leftTruth _).2, (rightTruth _).2]
          simp [Condition.holds, Condition.anyHolds]
      | and =>
          obtain ⟨whenFalse, whenTrue⟩ := agree.pair own
          rw [isValid_both (leftName.property _) (rightName.property _) whenFalse,
            isValid_either (leftName.property _) (rightName.property _) whenTrue,
            (leftTruth _).1, (rightTruth _).1, (leftTruth _).2, (rightTruth _).2]
          simp [Condition.holds, Condition.allHold, Bool.not_and]

/-! ## The stylesheet of a condition -/

theorem lastText?_pair {id : String} {whenFalse whenTrue : SlotValue}
    {declaration : Declaration} (mem : declaration ∈ pair id whenFalse whenTrue) :
    lastText? (pair id whenFalse whenTrue) declaration.property =
      some declaration.value.text := by
  have apart : Slot.whenTrue.property id ≠ Slot.whenFalse.property id := by
    simp [Slot.property_inj]
  rcases List.mem_cons.1 mem with rfl | mem
  · simp [pair, lastText?_cons, apart]
  · obtain rfl := List.mem_singleton.1 mem
    simp [pair, lastText?_cons]

theorem append_append_eq_join (first second third : Stylesheet) :
    first ++ second ++ third = join [first, second, third] := by
  change append (append first second) third = _
  simp [append, join]

theorem not_mem_properties {id other : String} {condition : Condition}
    (paired : condition.Paired) (apart : ∀ path, other ≠ nodeId id path) (slot : Slot) :
    slot.property other ∉ (ofCondition id condition).properties := by
  intro mem
  obtain ⟨path, slot', same⟩ := exists_path_of_mem_properties paired mem
  exact apart path (Slot.property_inj.1 same).2

theorem not_mem_properties_combined {operator : Operator} {id other : String}
    (apart : other ≠ id) (slot : Slot) :
    slot.property other ∉
      ({ initializers := combined operator id, rules := [] } : Stylesheet).properties := by
  intro mem
  obtain ⟨declaration, declarationMem, same⟩ := List.mem_map.1 mem
  obtain ⟨slot', named⟩ := exists_slot_of_mem_combined (by simpa using declarationMem)
  exact apart (Slot.property_inj.1 (same.symm.trans named)).2

/-- Every part of a stylesheet whose nodes no other part declares keeps its values. -/
theorem agreeBelow_join {sheets : List Stylesheet} {sheet : Stylesheet}
    (mem : sheet ∈ sheets) {id : String}
    (apart : ∀ other ∈ sheets, other = sheet ∨ ∀ (path : List Side) (slot : Slot),
      slot.property (nodeId id path) ∉ other.properties)
    (matching : String → Bool) :
    AgreeBelow (sheet.cascade matching) ((join sheets).cascade matching) id := by
  intro path slot
  refine get?_cascade_join mem (fun other otherMem => ?_) matching
  exact (apart other otherMem).imp_right fun absent => absent path slot

/-! ## The stylesheet of a composite -/

section

variable {operator : Operator} {id : String} {left right : Condition}

theorem ofCondition_composite :
    ofCondition id (.composite operator [left, right]) =
      join [ofCondition (leftId id) left, ofCondition (rightId id) right,
        { initializers := combined operator id, rules := [] }] := by
  rw [ofCondition, ofOperands, append_append_eq_join]

theorem nodeId_leftId_ne (id : String) (path path' : List Side) :
    nodeId (leftId id) path ≠ nodeId (rightId id) path' := by
  rw [leftId_eq, rightId_eq, nodeId_nodeId, nodeId_nodeId]
  intro same
  cases nodeId_injective same

theorem ne_nodeId_leftId (id : String) (path : List Side) :
    id ≠ nodeId (leftId id) path := by
  rw [leftId_eq, nodeId_nodeId]
  exact ne_nodeId_cons id _ path

theorem ne_nodeId_rightId (id : String) (path : List Side) :
    id ≠ nodeId (rightId id) path := by
  rw [rightId_eq, nodeId_nodeId]
  exact ne_nodeId_cons id _ path

theorem agreeBelow_left (rightPaired : right.Paired) (matching : String → Bool) :
    AgreeBelow ((ofCondition (leftId id) left).cascade matching)
      ((ofCondition id (.composite operator [left, right])).cascade matching)
      (leftId id) := by
  rw [ofCondition_composite]
  refine agreeBelow_join List.mem_cons_self (fun part mem => ?_) matching
  simp only [List.mem_cons, List.not_mem_nil, or_false] at mem
  rcases mem with rfl | rfl | rfl
  · exact Or.inl rfl
  · exact Or.inr fun path => not_mem_properties rightPaired (nodeId_leftId_ne id path)
  · exact Or.inr fun path => not_mem_properties_combined (ne_nodeId_leftId id path).symm

theorem agreeBelow_right (leftPaired : left.Paired) (matching : String → Bool) :
    AgreeBelow ((ofCondition (rightId id) right).cascade matching)
      ((ofCondition id (.composite operator [left, right])).cascade matching)
      (rightId id) := by
  rw [ofCondition_composite]
  refine agreeBelow_join (by simp) (fun part mem => ?_) matching
  simp only [List.mem_cons, List.not_mem_nil, or_false] at mem
  rcases mem with rfl | rfl | rfl
  · exact Or.inr fun path => not_mem_properties leftPaired
      fun path' => (nodeId_leftId_ne id path' path).symm
  · exact Or.inl rfl
  · exact Or.inr fun path => not_mem_properties_combined (ne_nodeId_rightId id path).symm

/-- The slots of a composite are declared by its own rule only. -/
theorem get?_cascade_composite (leftPaired : left.Paired) (rightPaired : right.Paired)
    (matching : String → Bool) {declaration : Declaration}
    (mem : declaration ∈ combined operator id) :
    ((ofCondition id (.composite operator [left, right])).cascade matching).get?
      declaration.property = some declaration.value.text := by
  obtain ⟨slot, named⟩ := exists_slot_of_mem_combined mem
  have fromOwn : ((ofCondition id (.composite operator [left, right])).cascade
        matching).get? declaration.property =
      (({ initializers := combined operator id, rules := [] } : Stylesheet).cascade
        matching).get? declaration.property := by
    rw [ofCondition_composite, named]
    refine get?_cascade_join (by simp) (fun part partMem => ?_) matching
    simp only [List.mem_cons, List.not_mem_nil, or_false] at partMem
    rcases partMem with rfl | rfl | rfl
    · exact Or.inr (not_mem_properties leftPaired (ne_nodeId_leftId id) slot)
    · exact Or.inr (not_mem_properties rightPaired (ne_nodeId_rightId id) slot)
    · exact Or.inl rfl
  rw [fromOwn, get?_cascade]
  cases operator with
  | or => simp [combined, lastText?_pair mem]
  | and => simp [combined, lastText?_pair mem]

end

/-- In the stylesheet of a condition, every node keeps its value. -/
theorem tied_ofCondition {id : String} {condition : Condition} (paired : condition.Paired)
    (matching : String → Bool) :
    Tied ((ofCondition id condition).cascade matching) matching id condition := by
  induction paired generalizing id with
  | @leaf text kind usable =>
      rw [ofCondition, ofLeaf_of_usable usable]
      refine .leaf fun declaration mem => ?_
      rw [get?_cascade]
      cases truth : matching text with
      | true =>
          rw [truth, if_pos rfl] at mem
          simp [truth, matched, lastText?_pair mem]
      | false =>
          rw [truth, if_neg Bool.false_ne_true] at mem
          simp [truth, resting, lastText?_pair mem]
  | @composite operator left right leftPaired rightPaired leftIh rightIh =>
      apply Tied.composite
      · exact leftIh.congr (agreeBelow_left rightPaired matching)
      · exact rightIh.congr (agreeBelow_right leftPaired matching)
      · exact fun declaration => get?_cascade_composite leftPaired rightPaired matching

end Stylesheet

end ConditionalStyles
