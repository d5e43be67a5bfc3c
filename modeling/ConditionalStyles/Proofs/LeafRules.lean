import ConditionalStyles.Proofs.StylesheetShape

/-!
# The rules of leaves

A query asks for a block of its own around a universal rule, and every other leaf text is a
selector in which the universal selector stands for the styled element.  The placeholder of
the element decides before the opening of a query is looked at, so a query that happens to
hold the placeholder is taken for a selector: its declarations stand directly in the block of
an at-rule.  Every other leaf has the rule that it asks for.
-/

namespace ConditionalStyles

open Stylesheet

namespace LeafKind

/-! ## Openings of leaf texts -/

def isBlank (character : Char) : Bool :=
  [' ', '\t', '\n', '\r', '\x0c'].contains character

/-- Whether the header of a block is that of an at-rule: it starts with the sign of one,
white space left out. -/
def opensAtRule (header : String) : Bool :=
  header.toList.find? (fun character => !isBlank character) == some '@'

theorem head?_of_opensQuery {text : String} (query : opensQuery text = true) :
    text.toList.head? = some '@' := by
  obtain ⟨word, mem, opening⟩ := List.any_eq_true.1 query
  have sign : ∀ word ∈ queryWords, word.toList.head? = some '@' := by decide
  obtain ⟨rest, same⟩ := List.isPrefixOf_iff_prefix.1 opening
  rw [← same, List.head?_append, sign word mem, Option.some_or]

theorem opensAtRule_of_head? {header : String} {first : Char}
    (head : header.toList.head? = some first) (visible : isBlank first = false) :
    opensAtRule header = (first == '@') := by
  obtain ⟨rest, characters⟩ := List.head?_eq_some_iff.1 head
  rw [opensAtRule, characters, List.find?_cons_of_pos (by rw [visible]; rfl)]
  rfl

end LeafKind

namespace Rule

open LeafKind

/-! ## The blocks of a rule -/

theorem placeholder_not_mem_universal (text : String) :
    placeholder ∉ (universal text).toList := by
  rw [toList_universal, List.mem_map]
  rintro ⟨character, -, same⟩
  rw [selectorCharacter] at same
  split at same
  · exact absurd same (by decide)
  · contradiction

theorem opensAtRule_universal (text : String) :
    opensAtRule (universal text) = opensAtRule text := by
  have blank : (fun character => !isBlank character) ∘ selectorCharacter =
      fun character => !isBlank character := by
    funext character
    rw [Function.comp, selectorCharacter]
    split
    · rename_i same
      rw [same]
      rfl
    · rfl
  have sign (character : Char) : selectorCharacter character = '@' ↔ character = '@' := by
    rw [selectorCharacter]
    split
    · rename_i same
      rw [same]
      decide
    · rfl
  rw [opensAtRule, opensAtRule, toList_universal, List.find?_map, blank, Bool.eq_iff_iff,
    beq_iff_eq, beq_iff_eq, Option.map_eq_some_iff]
  simp only [sign, exists_eq_right]

def selector (rule : Rule) : String :=
  match rule.kind with
  | .combinator => universal rule.leaf
  | .pseudo => rule.leaf
  | .atRule => "*"

/-- The header of the block around that one, if there is one. -/
def query? (rule : Rule) : Option String :=
  match rule.kind with
  | .atRule => some rule.leaf
  | _ => none

/-- The text of the rule that a leaf asks for: a query is wrapped around a universal rule, and
any other text is a selector, with the universal selector in place of the element. -/
def requiredText (rule : Rule) : String :=
  let body := Declaration.textOfAll rule.declarations
  if opensQuery rule.leaf then block rule.leaf (block "*" body)
  else block (universal rule.leaf) body

theorem length_universal (text : String) : (universal text).length = text.length := by
  rw [← String.length_toList, toList_universal, List.length_map, String.length_toList]

theorem length_block (header body : String) :
    (block header body).length = header.length + body.length + 2 := by
  rw [block, String.length_append, String.length_append, String.length_append]
  have braces : "\x7b".length = 1 ∧ "\x7d".length = 1 := by decide
  omega

/-- What the rule of a leaf looks like. -/
structure IsOfLeaf (rule : Rule) : Prop where
  blocks : rule.text =
    match rule.query? with
    | none => block rule.selector (Declaration.textOfAll rule.declarations)
    | some query =>
        block query (block rule.selector (Declaration.textOfAll rule.declarations))
  /-- The rule is the one that the leaf asks for, unless the leaf is a query that mentions
  the element. -/
  required : rule.text = rule.requiredText ↔
    ¬ (opensQuery rule.leaf = true ∧ mentionsElement rule.leaf = true)
  selector : placeholder ∉ rule.selector.toList
  /-- The declarations stand directly in an at-rule exactly if the leaf starts like one and
  mentions the element. -/
  atRule : opensAtRule rule.selector = true ↔
    opensAtRule rule.leaf = true ∧ mentionsElement rule.leaf = true

theorem block_universal_ne (text body : String) :
    block (universal text) body ≠ block text (block "*" body) := by
  intro same
  have lengths := congrArg String.length same
  simp only [length_block, length_universal] at lengths
  omega

variable {leaf : String} {kind : LeafKind}

/-- A leaf of any shape has such a rule. -/
theorem isOfLeaf (classified : ofText? leaf = some kind) (declarations : List Declaration) :
    IsOfLeaf { leaf, kind, declarations } := by
  obtain ⟨rfl, mentioned⟩ | ⟨rfl, unmentioned, colon⟩ | ⟨rfl, unmentioned, query⟩ :=
    cases_of_ofText? classified
  · refine ⟨rfl, ?_, placeholder_not_mem_universal leaf, ?_⟩
    · rw [requiredText]
      cases query : opensQuery leaf with
      | true => simpa [mentioned, text] using block_universal_ne leaf _
      | false => simp [text]
    · rw [selector, opensAtRule_universal, and_iff_left mentioned]
  · have noPlaceholder : placeholder ∉ leaf.toList := by
      simpa [mentionsElement] using unmentioned
    have noQuery : opensQuery leaf = false := by
      rw [Bool.eq_false_iff]
      intro query
      rw [head?_of_opensQuery query] at colon
      exact absurd colon (by decide)
    refine ⟨rfl, ?_, noPlaceholder, ?_⟩
    · simp [requiredText, noQuery, text, universal_eq_self unmentioned]
    · rw [selector, opensAtRule_of_head? colon (by decide)]
      simp [unmentioned]
  · have universalSelector : placeholder ∉ "*".toList ∧ opensAtRule "*" = false := by decide
    refine ⟨rfl, ?_, universalSelector.1, ?_⟩
    · simp [requiredText, query, text, unmentioned]
    · rw [selector, universalSelector.2]
      simp [unmentioned]

end Rule

namespace Stylesheet

/-! ## The rules of a stylesheet -/

theorem isOfLeaf_of_mem_rules {condition : Condition} (paired : condition.Paired) {id : String}
    {rule : Rule} (mem : rule ∈ (ofCondition id condition).rules) : rule.IsOfLeaf := by
  rw [rules_ofCondition paired, List.mem_filterMap] at mem
  obtain ⟨⟨path, content⟩, -, leaf⟩ := mem
  cases content with
  | composite operator operands => cases leaf
  | leaf text =>
      obtain ⟨kind, classified, rfl⟩ := Option.map_eq_some_iff.1 leaf
      exact Rule.isOfLeaf classified _

end Stylesheet

namespace Compiled

variable (scheme : Identifier.Scheme) (configuration : Configuration)

/-- Behind the universal rule a stylesheet has one rule for every leaf of the hooks with valid
conditions, in order.  It exchanges the pair of the node of the leaf and stands in the blocks
that the leaf asks for, unless the leaf is a query that mentions the element.  No selector
mentions the element, and declarations stand directly in an at-rule exactly for leaves that
start like one and mention the element. -/
theorem leaf_rules_apply :
    (ofConfiguration scheme configuration).cssText =
      Rule.block "*" (Declaration.textOfAll
        (ofConfiguration scheme configuration).stylesheet.initializers) ++
      String.join ((ofConfiguration scheme configuration).stylesheet.rules.map Rule.text) ∧
    (ofConfiguration scheme configuration).stylesheet.rules =
      configuration.validHooks.flatMap (fun hook =>
        hook.2.normalize.nodes.filterMap (Node.rule? (scheme hook.1 hook.2.normalize))) ∧
    (ofConfiguration scheme configuration).stylesheet.rules.map Rule.leaf =
      configuration.validHooks.flatMap (fun hook => hook.2.leaves) ∧
    ((ofConfiguration scheme configuration).stylesheet.rules.map fun rule =>
        (rule.leaf, Declaration.textOfAll rule.declarations)) =
      (configuration.validHooks.flatMap fun hook =>
        hook.2.normalize.nodes.filterMap fun node => node.leaf?.map fun leaf =>
          let id := nodeId (scheme hook.1 hook.2.normalize) node.path
          (leaf, "--" ++ id ++ "-0: ;--" ++ id ++ "-1:initial;")) ∧
    ∀ rule ∈ (ofConfiguration scheme configuration).stylesheet.rules, rule.IsOfLeaf := by
  refine ⟨rfl, ?_, map_leaf_rules_ofConfiguration scheme configuration, ?_, fun rule mem => ?_⟩
  · rw [rules_ofConfiguration]
    exact List.flatMap_congr fun hook mem => rules_ofCondition (paired_of_mem_validHooks mem) _
  · rw [rules_ofConfiguration, List.map_flatMap]
    refine List.flatMap_congr fun hook mem =>
      map_rules (paired_of_mem_validHooks mem) _ _ (fun path text kind _ => ?_) fun _ _ _ => rfl
    rw [Node.textOfAll_matched _ { path, condition := .leaf text }]
    rfl
  · rw [rules_ofConfiguration, List.mem_flatMap] at mem
    obtain ⟨hook, hookMem, ruleMem⟩ := mem
    exact isOfLeaf_of_mem_rules (paired_of_mem_validHooks hookMem) ruleMem

/-- A query deep inside a condition is wrapped around a universal rule. -/
theorem leaf_rules_apply_pressed :
    ∃ rule ∈ (ofConfiguration (Identifier.named id) pressedAlone).stylesheet.rules,
      rule.leaf = "@media print" ∧
      rule.text = "@media print\x7b*\x7b--pressedBBA-0: ;--pressedBBA-1:initial;\x7d\x7d" := by
  obtain ⟨-, -, -, -, ofLeaf⟩ := leaf_rules_apply (Identifier.named id) pressedAlone
  let rule : Rule :=
    { leaf := "@media print", kind := .atRule, declarations := matched "pressedBBA" }
  have mem : rule ∈ (ofConfiguration (Identifier.named id) pressedAlone).stylesheet.rules := by
    decide
  have required : rule.text = rule.requiredText := (ofLeaf rule mem).required.2 (by decide)
  exact ⟨rule, mem, rfl, required.trans (by decide)⟩

def nesting : Configuration where
  hooks := [("nesting", .leaf "@supports selector(&)")]
  nodup := by decide

/-- The query is valid, but its rule is not wrapped: the universal selector is put into the
query, and the declarations stand directly in the at-rule. -/
theorem nesting_query_not_wrapped :
    (ofConfiguration (Identifier.named id) nesting).isActive "nesting" = true ∧
    (ofConfiguration (Identifier.named id) nesting).cssText =
      "*\x7b--nesting-0:initial;--nesting-1: ;\x7d" ++
        "@supports selector(*)\x7b--nesting-0: ;--nesting-1:initial;\x7d" ∧
    ∃ rule, (ofConfiguration (Identifier.named id) nesting).stylesheet.rules = [rule] ∧
      rule.requiredText =
        "@supports selector(&)\x7b*\x7b--nesting-0: ;--nesting-1:initial;\x7d\x7d" ∧
      rule.text ≠ rule.requiredText ∧ LeafKind.opensAtRule rule.selector = true := by
  let rule : Rule :=
    { leaf := "@supports selector(&)", kind := .combinator, declarations := matched "nesting" }
  exact ⟨by decide, by decide, rule, by decide, by decide, by decide, by decide⟩

end Compiled

end ConditionalStyles
