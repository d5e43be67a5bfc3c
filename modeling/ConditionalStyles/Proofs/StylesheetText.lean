import ConditionalStyles.Entries
import ConditionalStyles.Proofs.Nodes
import ConditionalStyles.Proofs.References

/-!
# Reading the text of a stylesheet

A block of declarations is cut at its semicolons, and every piece at its first colon.
A leaf may be any text, so the braces of a stylesheet do not tell where its rules end.
A reader who knows the leaves, and therefore how the rules start, reads the declarations
that the text was written from, as long as the properties have names.
-/

namespace ConditionalStyles

namespace Css

/-! ## Blocks and rules -/

def splitAt? (separator : Char) (text : List Char) : Option (List Char × List Char) :=
  match text.dropWhile (· != separator) with
  | [] => none
  | _ :: behind => some (text.takeWhile (· != separator), behind)

def declaration? (text : List Char) : Option (String × String) :=
  (splitAt? ':' text).map fun parts => (String.ofList parts.1, String.ofList parts.2)

/-- The declarations of a block in order.  What has no colon is no declaration. -/
def declarations (block : List Char) : Entries String :=
  (block.splitOn ';').filterMap declaration?

/-- The contents of the block with a header at the start of a text, and the text behind it. -/
def block? (header : String) (text : List Char) : Option (List Char × List Char) :=
  (List.isPrefixOf? (header.toList ++ "\x7b".toList) text).bind (splitAt? '\x7d')

/-- The declarations of the rule with a header at the start of a text, and the text behind
it.  They stand in the rule itself or in a universal rule inside. -/
def rule? (header : String) (text : List Char) : Option (Entries String × List Char) :=
  (List.isPrefixOf? (header.toList ++ "\x7b".toList) text).bind fun inside =>
    match block? "*" inside with
    | some (body, '\x7d' :: behind) => some (declarations body, behind)
    | some _ => none
    | none => (splitAt? '\x7d' inside).map fun parts => (declarations parts.1, parts.2)

/-- What the rule of a leaf starts with: the leaf, with `*` for the styled element. -/
def header (leaf : String) : String :=
  String.ofList (leaf.toList.map fun character => if character = '&' then '*' else character)

def rules? : List String → List Char → Option (List (String × Entries String))
  | [], [] => some []
  | [], _ :: _ => none
  | leaf :: leaves, text =>
      (rule? (header leaf) text).bind fun parts =>
        (rules? leaves parts.2).map ((leaf, parts.1) :: ·)

/-- A stylesheet as it is read: the declarations of the universal rule, and those of the
rules of leaves. -/
structure Sheet where
  initializers : Entries String
  rules : List (String × Entries String)

namespace Sheet

/-- The stylesheet of a text that has one rule for each of the leaves. -/
def ofText? (leaves : List String) (text : String) : Option Sheet :=
  (block? "*" text.toList).bind fun parts =>
    (rules? leaves parts.2).map fun rules => { initializers := declarations parts.1, rules }

def inForce (sheet : Sheet) (matching : String → Bool) : Entries String :=
  sheet.initializers ++ (sheet.rules.filter fun rule => matching rule.1).flatMap Prod.snd

/-- The value of every property, where a declaration overrides earlier ones. -/
def cascade (sheet : Sheet) (matching : String → Bool) : Entries String :=
  Entries.ofList (sheet.inForce matching)

end Sheet

/-- Whether a text starts with one of some properties, and its name ends there. -/
def OpensOneOf (properties : List String) (after : List Char) : Prop :=
  ∃ property ∈ properties, ∃ rest,
    after = property.toList ++ ',' :: rest ∨ after = property.toList ++ ')' :: rest

theorem OpensOneOf.mono {properties properties' : List String} {after : List Char}
    (subset : properties ⊆ properties') (opens : OpensOneOf properties after) :
    OpensOneOf properties' after := by
  obtain ⟨property, mem, rest, ends⟩ := opens
  exact ⟨property, subset mem, rest, ends⟩

theorem OpensOneOf.append {properties : List String} (start rest : List Char)
    (starts : OpensOneOf properties start) : OpensOneOf properties (start ++ rest) := by
  obtain ⟨property, mem, inside, rfl | rfl⟩ := starts
  · exact ⟨property, mem, inside ++ rest, .inl (by simp)⟩
  · exact ⟨property, mem, inside ++ rest, .inr (by simp)⟩

/-! ## Cutting texts -/

theorem splitAt?_append {separator : Char} {before : List Char} (absent : separator ∉ before)
    (behind : List Char) :
    splitAt? separator (before ++ separator :: behind) = some (before, behind) := by
  have passes : ∀ character ∈ before, (character != separator) = true := by
    intro character mem
    rw [bne_iff_ne]
    rintro rfl
    exact absent mem
  rw [splitAt?, List.dropWhile_append_of_pos passes, List.takeWhile_append_of_pos passes]
  simp

theorem isPrefixOf?_append (beginning rest : List Char) :
    List.isPrefixOf? beginning (beginning ++ rest) = some rest := by
  induction beginning with
  | nil => rfl
  | cons character beginning ih => simp [List.isPrefixOf?, ih]

theorem block?_block (header : String) {body : List Char} (closes : '\x7d' ∉ body)
    (behind : List Char) :
    block? header (header.toList ++ "\x7b".toList ++ (body ++ '\x7d' :: behind)) =
      some (body, behind) := by
  rw [block?, isPrefixOf?_append, Option.bind_some, splitAt?_append closes]

theorem block?_eq_none {body : List Char} (opens : '\x7b' ∉ body) (behind : List Char) :
    block? "*" (body ++ '\x7d' :: behind) = none := by
  have missing : List.isPrefixOf? ['*', '\x7b'] (body ++ '\x7d' :: behind) = none := by
    match body with
    | [] => rfl
    | [first] => simp [List.isPrefixOf?]
    | first :: second :: rest =>
        have other : ('\x7b' == second) = false := by
          rw [beq_eq_false_iff_ne]
          rintro rfl
          exact opens (List.mem_cons_of_mem _ List.mem_cons_self)
        simp [List.isPrefixOf?, other]
  have header : "*".toList ++ "\x7b".toList = ['*', '\x7b'] := by decide
  rw [block?, header, missing, Option.bind_none]

theorem rule?_block (header : String) {body : List Char} (opens : '\x7b' ∉ body)
    (closes : '\x7d' ∉ body) (behind : List Char) :
    rule? header (header.toList ++ "\x7b".toList ++ (body ++ '\x7d' :: behind)) =
      some (declarations body, behind) := by
  rw [rule?, isPrefixOf?_append, Option.bind_some, block?_eq_none opens,
    splitAt?_append closes]
  rfl

theorem rule?_query (header : String) {body : List Char} (closes : '\x7d' ∉ body)
    (behind : List Char) :
    rule? header (header.toList ++ "\x7b".toList ++
        ("*".toList ++ "\x7b".toList ++ (body ++ '\x7d' :: '\x7d' :: behind))) =
      some (declarations body, behind) := by
  rw [rule?, isPrefixOf?_append, Option.bind_some, block?_block "*" closes]
  rfl

end Css

open Css Stylesheet

/-! ## Declarations -/

/-- The properties that a value is written with. -/
def SlotValue.references : SlotValue → List String
  | .invalid => []
  | .blank => []
  | .either first second => [first, second]
  | .both first second => [first, second]

namespace SlotValue

variable {value : SlotValue} (named : ∀ reference ∈ value.references, IsName reference)
include named

/-- A value consists of names and of the marks of references. -/
theorem not_mem_text {mark : Char} (foreign : isNameChar mark = false)
    (absent : mark ∉ ['v', 'a', 'r', '(', ',', ')', ' ']) : mark ∉ value.text.toList := by
  cases value with
  | invalid => exact (by decide : IsName "initial").not_mem foreign
  | blank => simpa [SlotValue.text] using fun same => absent (by simp [same])
  | either first second | both first second =>
      have inFirst := (named first List.mem_cons_self).not_mem foreign
      have inSecond :=
        (named second (List.mem_cons_of_mem _ List.mem_cons_self)).not_mem foreign
      simp only [List.mem_cons, not_or] at absent
      simp [SlotValue.text, inFirst, inSecond, absent]

/-- The references in a value go to the properties that it is written with. -/
theorem atOpenings_text : AtOpenings (OpensOneOf value.references) value.text.toList := by
  have plain {text : String} (absent : '(' ∉ text.toList) {kind : List Char → Prop} :
      AtOpenings kind text.toList := .of_unreferenced (not_infix_of_not_mem absent)
  cases value with
  | invalid => exact plain (by decide)
  | blank => exact plain (by decide)
  | either first second =>
      have mem : second ∈ [first, second] := List.mem_cons_of_mem _ List.mem_cons_self
      have text_eq : (SlotValue.either first second).text.toList =
          'v' :: 'a' :: 'r' :: '(' :: (first.toList ++ ',' ::
            'v' :: 'a' :: 'r' :: '(' :: (second.toList ++ ')' :: [')'])) := by
        simp [SlotValue.text]
      rw [text_eq]
      apply AtOpenings.reference OpensOneOf.append (named first List.mem_cons_self) (by decide)
      · exact ⟨first, List.mem_cons_self, _, .inl rfl⟩
      · apply AtOpenings.reference OpensOneOf.append (named second mem) (by decide)
        · exact ⟨second, mem, _, .inr rfl⟩
        · exact .cons (by decide) .nil
  | both first second =>
      have mem : second ∈ [first, second] := List.mem_cons_of_mem _ List.mem_cons_self
      have text_eq : (SlotValue.both first second).text.toList =
          'v' :: 'a' :: 'r' :: '(' :: (first.toList ++ ')' ::
            ' ' :: 'v' :: 'a' :: 'r' :: '(' :: (second.toList ++ ')' :: [])) := by
        simp [SlotValue.text]
      rw [text_eq]
      apply AtOpenings.reference OpensOneOf.append (named first List.mem_cons_self) (by decide)
      · exact ⟨first, List.mem_cons_self, _, .inr rfl⟩
      · refine AtOpenings.cons (by decide) ?_
        apply AtOpenings.reference OpensOneOf.append (named second mem) (by decide)
        · exact ⟨second, mem, _, .inr rfl⟩
        · exact .nil

end SlotValue

def Declaration.entry (declaration : Declaration) : String × String :=
  (declaration.property, declaration.value.text)

structure Declaration.HasNames (declaration : Declaration) : Prop where
  property : IsName declaration.property
  references : ∀ reference ∈ declaration.value.references, IsName reference

namespace Declaration

theorem toList_textOfAll_cons (declaration : Declaration) (rest : List Declaration) :
    (textOfAll (declaration :: rest)).toList =
      declaration.property.toList ++ ':' :: declaration.value.text.toList ++
        ';' :: (textOfAll rest).toList := by
  simp [textOfAll, text, String.join_cons]

variable {declarations : List Declaration}
  (named : ∀ declaration ∈ declarations, declaration.HasNames)
include named

theorem not_mem_textOfAll {mark : Char} (foreign : isNameChar mark = false)
    (absent : mark ∉ ['v', 'a', 'r', '(', ',', ')', ' ', ':', ';']) :
    mark ∉ (textOfAll declarations).toList := by
  simp only [List.mem_cons, List.not_mem_nil, or_false, not_or] at absent
  induction declarations with
  | nil => exact List.not_mem_nil
  | cons declaration rest ih =>
      have inRest := ih fun other mem => named other (List.mem_cons_of_mem _ mem)
      have own := named declaration List.mem_cons_self
      have inValue : mark ∉ declaration.value.text.toList :=
        SlotValue.not_mem_text own.references foreign (by simp [absent])
      rw [toList_textOfAll_cons]
      simp [inRest, inValue, own.property.not_mem foreign, absent]

theorem braces_not_mem_textOfAll : '\x7b' ∉ (textOfAll declarations).toList ∧
    '\x7d' ∉ (textOfAll declarations).toList :=
  ⟨not_mem_textOfAll named (by decide) (by decide),
    not_mem_textOfAll named (by decide) (by decide)⟩

theorem declarations_textOfAll :
    Css.declarations (textOfAll declarations).toList = declarations.map entry := by
  induction declarations with
  | nil => decide
  | cons declaration rest ih =>
      have own := named declaration List.mem_cons_self
      have inValue : ';' ∉ declaration.value.text.toList :=
        SlotValue.not_mem_text own.references (by decide) (by decide)
      have onePiece : ';' ∉ declaration.property.toList ++
          ':' :: declaration.value.text.toList := by
        have inProperty := own.property.not_mem (by decide : isNameChar ';' = false)
        simp [inValue, inProperty]
      have cut : declaration? (declaration.property.toList ++
          ':' :: declaration.value.text.toList) = some declaration.entry := by
        rw [declaration?, splitAt?_append (own.property.not_mem (by decide))]
        simp [entry]
      rw [Css.declarations, toList_textOfAll_cons,
        List.splitOn_append_cons_self_of_not_mem onePiece, List.filterMap_cons_some cut,
        ← Css.declarations, ih fun other mem => named other (List.mem_cons_of_mem _ mem),
        List.map_cons]

end Declaration

/-! ## Rules -/

namespace LeafKind

def opensQuery (text : String) : Bool :=
  queryWords.any fun word => word.toList.isPrefixOf text.toList

def mentionsElement (text : String) : Bool :=
  text.toList.contains placeholder

theorem ofText?_eq (text : String) :
    ofText? text =
      if mentionsElement text then some .combinator
      else if text.toList.head? = some ':' then some .pseudo
      else if opensQuery text then some .atRule
      else none :=
  rfl

theorem cases_of_ofText? {text : String} {kind : LeafKind} (classified : ofText? text = some kind) :
    kind = .combinator ∧ mentionsElement text = true ∨
      kind = .pseudo ∧ mentionsElement text = false ∧ text.toList.head? = some ':' ∨
      kind = .atRule ∧ mentionsElement text = false ∧ opensQuery text = true := by
  rw [ofText?_eq] at classified
  split at classified
  · rename_i mentioned
    exact .inl ⟨(Option.some.inj classified).symm, mentioned⟩
  · rename_i unmentioned
    rw [Bool.not_eq_true] at unmentioned
    split at classified
    · rename_i colon
      exact .inr (.inl ⟨(Option.some.inj classified).symm, unmentioned, colon⟩)
    · split at classified
      · rename_i query
        exact .inr (.inr ⟨(Option.some.inj classified).symm, unmentioned, query⟩)
      · cases classified

end LeafKind

namespace Rule

open LeafKind

def selectorCharacter (character : Char) : Char :=
  if character = placeholder then '*' else character

theorem toList_universal (text : String) :
    (universal text).toList = text.toList.map selectorCharacter :=
  String.toList_ofList

theorem universal_eq_self {text : String} (unmentioned : mentionsElement text = false) :
    universal text = text := by
  have kept : text.toList.map selectorCharacter = text.toList.map id := by
    refine List.map_congr_left fun character mem => if_neg fun same => ?_
    rw [mentionsElement, ← same, List.contains_eq_mem, decide_eq_false_iff_not] at unmentioned
    exact unmentioned mem
  exact String.toList_injective ((toList_universal text).trans (kept.trans (List.map_id _)))

theorem header_eq_universal (leaf : String) : Css.header leaf = universal leaf :=
  rfl

theorem toList_block (header body : String) :
    (block header body).toList =
      header.toList ++ "\x7b".toList ++ (body.toList ++ "\x7d".toList) := by
  simp [block]

def entry (rule : Rule) : String × Entries String :=
  (rule.leaf, rule.declarations.map Declaration.entry)

structure IsReadable (rule : Rule) : Prop where
  kind : ofText? rule.leaf = some rule.kind
  named : ∀ declaration ∈ rule.declarations, declaration.HasNames

theorem rule?_text {rule : Rule} (readable : rule.IsReadable) (behind : List Char) :
    rule? (Css.header rule.leaf) (rule.text.toList ++ behind) =
      some (rule.declarations.map Declaration.entry, behind) := by
  rw [header_eq_universal]
  obtain ⟨leaf, kind, declarations⟩ := rule
  have named := readable.named
  obtain ⟨opens, closes⟩ := Declaration.braces_not_mem_textOfAll named
  have cut := Declaration.declarations_textOfAll named
  -- A selector has one block, and a query has a block of the universal rule inside its own.
  have selector (header : String) :
      rule? header ((block header (Declaration.textOfAll declarations)).toList ++ behind) =
        some (declarations.map Declaration.entry, behind) := by
    rw [← cut, ← rule?_block header opens closes behind]
    simp [toList_block]
  obtain ⟨rfl, -⟩ | ⟨rfl, unmentioned, -⟩ | ⟨rfl, unmentioned, -⟩ :=
    cases_of_ofText? readable.kind
  · exact selector (universal leaf)
  · rw [universal_eq_self unmentioned]
    exact selector leaf
  · rw [universal_eq_self unmentioned, ← cut, ← rule?_query leaf closes behind]
    simp [text, toList_block]

theorem rules?_text {rules : List Rule} (readable : ∀ rule ∈ rules, rule.IsReadable) :
    rules? (rules.map Rule.leaf) (String.join (rules.map Rule.text)).toList =
      some (rules.map entry) := by
  induction rules with
  | nil => rfl
  | cons rule rest ih =>
      rw [List.map_cons, List.map_cons, String.join_cons, String.toList_append, rules?,
        rule?_text (readable rule List.mem_cons_self), Option.bind_some,
        ih fun other mem => readable other (List.mem_cons_of_mem _ mem)]
      rfl

end Rule

namespace Node

/-- A node refers to the slots of its operands only. -/
theorem exists_operand_of_reference {id : String} {node : Node} {declaration : Declaration}
    (mem : declaration ∈ node.declarations id) {reference : String}
    (refers : reference ∈ declaration.value.references) :
    ∃ operator operands, node.condition = .composite operator operands ∧
      ∃ (side : Side) (slot : Slot),
        reference = slot.property (nodeId id (node.path ++ [side])) := by
  obtain ⟨path, condition⟩ := node
  have below (side : Side) : nodeId id (path ++ [side]) = nodeId (nodeId id path) [side] :=
    (nodeId_nodeId id path [side]).symm
  cases condition with
  | leaf text =>
      have nothing : declaration.value.references = [] := by
        rcases List.mem_pair.1 mem with rfl | rfl <;> rfl
      rw [nothing] at refers
      exact absurd refers List.not_mem_nil
  | composite operator operands =>
      have operandSlots : ∃ slot : Slot, declaration.value.references =
          [slot.property (leftId (nodeId id path)), slot.property (rightId (nodeId id path))] := by
        cases operator with
        | or => rcases List.mem_pair.1 mem with rfl | rfl <;> exact ⟨_, rfl⟩
        | and => rcases List.mem_pair.1 mem with rfl | rfl <;> exact ⟨_, rfl⟩
      obtain ⟨slot, references⟩ := operandSlots
      rw [references] at refers
      refine ⟨operator, operands, rfl, ?_⟩
      rcases List.mem_pair.1 refers with rfl | rfl
      · exact ⟨.left, slot, by rw [below, leftId_eq]⟩
      · exact ⟨.right, slot, by rw [below, rightId_eq]⟩

theorem hasNames {id : String} (isName : IsName id) {node : Node} {declaration : Declaration}
    (mem : declaration ∈ node.declarations id) : declaration.HasNames where
  property := by
    have own := List.mem_map_of_mem (f := Declaration.property) mem
    rw [map_property_declarations, mem_slots] at own
    obtain ⟨slot, property⟩ := own
    rw [property]
    exact (isName.nodeId _).property slot
  references reference refers := by
    obtain ⟨-, -, -, side, slot, rfl⟩ := exists_operand_of_reference mem refers
    exact (isName.nodeId _).property slot

/-- A node that is a leaf has a readable rule. -/
theorem isReadable {id : String} (isName : IsName id) {node : Node} {rule : Rule}
    (rule_eq : node.rule? id = some rule) : rule.IsReadable := by
  obtain ⟨path, condition⟩ := node
  cases condition with
  | composite operator operands => cases rule_eq
  | leaf text =>
      obtain ⟨kind, usable, rfl⟩ := Option.map_eq_some_iff.1 rule_eq
      refine ⟨usable, fun declaration mem => ?_⟩
      have own := isName.nodeId path
      rcases List.mem_pair.1 mem with rfl | rfl
      · exact ⟨own.property .whenFalse, by simp [SlotValue.references]⟩
      · exact ⟨own.property .whenTrue, by simp [SlotValue.references]⟩

end Node

namespace Stylesheet

def sheet (stylesheet : Stylesheet) : Sheet where
  initializers := stylesheet.initializers.map Declaration.entry
  rules := stylesheet.rules.map Rule.entry

structure IsReadable (stylesheet : Stylesheet) : Prop where
  initializers : ∀ declaration ∈ stylesheet.initializers, declaration.HasNames
  rules : ∀ rule ∈ stylesheet.rules, rule.IsReadable

theorem ofText?_text {stylesheet : Stylesheet} (readable : stylesheet.IsReadable) :
    Sheet.ofText? (stylesheet.rules.map Rule.leaf) stylesheet.text = some stylesheet.sheet := by
  have closes := (Declaration.braces_not_mem_textOfAll readable.initializers).2
  have text_eq : stylesheet.text.toList = "*".toList ++ "\x7b".toList ++
      ((Declaration.textOfAll stylesheet.initializers).toList ++
        '\x7d' :: (String.join (stylesheet.rules.map Rule.text)).toList) := by
    simp [text, Rule.toList_block]
  rw [Sheet.ofText?, text_eq, block?_block "*" closes, Option.bind_some,
    Rule.rules?_text readable.rules, Option.map_some,
    Declaration.declarations_textOfAll readable.initializers]
  rfl

theorem isReadable_ofCondition {condition : Condition} (paired : condition.Paired)
    {id : String} (isName : IsName id) : (ofCondition id condition).IsReadable where
  initializers declaration mem := by
    rw [initializers_ofCondition paired, List.mem_flatMap] at mem
    obtain ⟨node, -, mem⟩ := mem
    exact node.hasNames isName mem
  rules rule mem := by
    rw [rules_ofCondition paired, List.mem_filterMap] at mem
    obtain ⟨node, -, rule_eq⟩ := mem
    exact node.isReadable isName rule_eq

end Stylesheet

end ConditionalStyles
