import ConditionalStyles.Condition.NormalForm

/-!
# Regrouping of conditions

Regrouping keeps the meaning, the leaves and the validity of a condition, and leaves
of a valid condition only what a stylesheet can express: usable leaves and pairs.
Whether valid or not, a condition is regrouped into composites of two operands or
none, and it is left alone exactly if it consists of such composites already.
-/

namespace ConditionalStyles

namespace Condition

/-- A condition of usable leaves, in which every composite has two operands. -/
inductive Paired : Condition → Prop where
  | leaf {text : String} {kind : LeafKind} (usable : LeafKind.ofText? text = some kind) :
      Paired (.leaf text)
  | composite (operator : Operator) {left right : Condition}
      (leftPaired : Paired left) (rightPaired : Paired right) :
      Paired (.composite operator [left, right])

theorem paired_chain (operator : Operator) {operands : List Condition}
    (nonempty : operands ≠ []) (paired : ∀ operand ∈ operands, Paired operand) :
    Paired (chain operator operands) := by
  fun_induction chain operator operands with
  | case1 => exact absurd rfl nonempty
  | case2 only => exact paired only List.mem_cons_self
  | case3 first second rest ih =>
      refine .composite operator (paired first List.mem_cons_self) (ih (by simp) ?_)
      exact fun operand mem => paired operand (List.mem_cons_of_mem _ mem)

theorem normalizeAll_eq_nil_iff {operands : List Condition} :
    normalizeAll operands = [] ↔ operands = [] := by
  cases operands <;> simp [normalizeAll]

mutual

theorem paired_normalize {condition : Condition} (valid : condition.isValid = true) :
    Paired condition.normalize := by
  cases condition with
  | leaf text =>
      obtain ⟨kind, usable⟩ := Option.isSome_iff_exists.1 valid
      exact .leaf usable
  | composite operator operands =>
      rw [isValid, Bool.and_eq_true] at valid
      refine paired_chain operator ?_ (paired_normalizeAll valid.2)
      rw [ne_eq, normalizeAll_eq_nil_iff]
      simpa using valid.1

theorem paired_normalizeAll {operands : List Condition} (valid : areValid operands = true) :
    ∀ operand ∈ normalizeAll operands, Paired operand := by
  match operands with
  | [] => simp [normalizeAll]
  | first :: rest =>
      rw [areValid, Bool.and_eq_true] at valid
      rw [normalizeAll]
      intro operand mem
      rcases List.mem_cons.1 mem with rfl | later
      · exact paired_normalize valid.1
      · exact paired_normalizeAll valid.2 operand later

end

/-! ## Validity -/

theorem isValid_chain (operator : Operator) (operands : List Condition) :
    (chain operator operands).isValid = (!operands.isEmpty && areValid operands) := by
  fun_induction chain operator operands with
  | case1 => rfl
  | case2 only => simp [areValid]
  | case3 first second rest ih => simp [isValid, areValid, ih]

mutual

theorem isValid_normalize (condition : Condition) :
    condition.normalize.isValid = condition.isValid := by
  cases condition with
  | leaf text => rfl
  | composite operator operands =>
      rw [normalize, isValid_chain, isValid, areValid_normalizeAll]
      cases operands <;> simp [normalizeAll]

theorem areValid_normalizeAll (operands : List Condition) :
    areValid (normalizeAll operands) = areValid operands := by
  match operands with
  | [] => rfl
  | first :: rest =>
      rw [normalizeAll, areValid, areValid, isValid_normalize first,
        areValid_normalizeAll rest]

end

/-! ## Leaves -/

theorem leaves_chain (operator : Operator) (operands : List Condition) :
    (chain operator operands).leaves = leavesOf operands := by
  fun_induction chain operator operands with
  | case1 => rfl
  | case2 only => rw [leavesOf, leavesOf, List.append_nil]
  | case3 first second rest ih =>
      simp only [leaves, leavesOf, ih, List.append_nil]

mutual

theorem leaves_normalize (condition : Condition) :
    condition.normalize.leaves = condition.leaves := by
  cases condition with
  | leaf text => rfl
  | composite operator operands =>
      rw [normalize, leaves_chain, leaves, leavesOf_normalizeAll]

theorem leavesOf_normalizeAll (operands : List Condition) :
    leavesOf (normalizeAll operands) = leavesOf operands := by
  match operands with
  | [] => rfl
  | first :: rest =>
      rw [normalizeAll, leavesOf, leavesOf, leaves_normalize first,
        leavesOf_normalizeAll rest]

end

/-! ## Meaning -/

section

variable (matching : String → Bool)

/-- A chain is true like the composite of its operands. -/
theorem holds_chain (operator : Operator) (operands : List Condition) :
    (chain operator operands).holds matching =
      (composite operator operands).holds matching := by
  fun_induction chain operator operands with
  | case1 => rfl
  | case2 only => cases operator <;> simp [holds, anyHolds, allHold]
  | case3 first second rest ih =>
      cases operator with
      | or =>
          simp only [holds, anyHolds] at ih ⊢
          rw [ih, Bool.or_false]
      | and =>
          simp only [holds, allHold] at ih ⊢
          rw [ih, Bool.and_true]

mutual

/-- Regrouping keeps the meaning of a condition. -/
theorem holds_normalize (condition : Condition) :
    condition.normalize.holds matching = condition.holds matching := by
  cases condition with
  | leaf text => rfl
  | composite operator operands =>
      rw [normalize, holds_chain]
      cases operator with
      | or => rw [holds, holds, anyHolds_normalizeAll]
      | and => rw [holds, holds, allHold_normalizeAll]

theorem anyHolds_normalizeAll (operands : List Condition) :
    anyHolds matching (normalizeAll operands) = anyHolds matching operands := by
  match operands with
  | [] => rfl
  | first :: rest =>
      rw [normalizeAll, anyHolds, anyHolds, holds_normalize first,
        anyHolds_normalizeAll rest]

theorem allHold_normalizeAll (operands : List Condition) :
    allHold matching (normalizeAll operands) = allHold matching operands := by
  match operands with
  | [] => rfl
  | first :: rest =>
      rw [normalizeAll, allHold, allHold, holds_normalize first,
        allHold_normalizeAll rest]

end

end

/-! ## Composites of two operands or none -/

/-- A condition in which every composite has two operands or none. -/
inductive Binary : Condition → Prop where
  | leaf (text : String) : Binary (.leaf text)
  | empty (operator : Operator) : Binary (.composite operator [])
  | pair (operator : Operator) {left right : Condition}
      (leftBinary : Binary left) (rightBinary : Binary right) :
      Binary (.composite operator [left, right])

theorem binary_chain (operator : Operator) {operands : List Condition}
    (binary : ∀ operand ∈ operands, Binary operand) : Binary (chain operator operands) := by
  fun_induction chain operator operands with
  | case1 => exact .empty operator
  | case2 only => exact binary only List.mem_cons_self
  | case3 first second rest ih =>
      apply Binary.pair operator (binary first List.mem_cons_self)
      exact ih fun operand mem => binary operand (List.mem_cons_of_mem _ mem)

mutual

theorem binary_normalize (condition : Condition) : Binary condition.normalize := by
  cases condition with
  | leaf text => exact .leaf text
  | composite operator operands => exact binary_chain operator (binary_normalizeAll operands)

theorem binary_normalizeAll (operands : List Condition) :
    ∀ operand ∈ normalizeAll operands, Binary operand := by
  match operands with
  | [] => simp [normalizeAll]
  | first :: rest =>
      rw [normalizeAll]
      intro operand mem
      rcases List.mem_cons.1 mem with rfl | later
      · exact binary_normalize first
      · exact binary_normalizeAll rest operand later

end

theorem Binary.normalize_eq {condition : Condition} (binary : Binary condition) :
    condition.normalize = condition := by
  induction binary with
  | leaf text => rfl
  | empty operator => rfl
  | pair operator leftBinary rightBinary leftEq rightEq =>
      simp only [normalize, normalizeAll, chain, leftEq, rightEq]

/-- What is left alone by regrouping is what regrouping leads to. -/
theorem normalize_eq_self_iff {condition : Condition} :
    condition.normalize = condition ↔ Binary condition := by
  constructor
  · intro same
    rw [← same]
    exact binary_normalize condition
  · exact Binary.normalize_eq

/-! ## Depth -/

/-- The leaves of a paired condition outnumber the composites around any of them: each
of these composites has leaves on both sides. -/
theorem Paired.depth_lt {condition : Condition} (paired : Paired condition) :
    condition.depth < condition.leaves.length := by
  induction paired with
  | leaf usable => simp [depth, leaves]
  | composite operator leftPaired rightPaired leftLt rightLt =>
      simp only [depth, greatestDepth, leaves, leavesOf, List.append_nil, List.length_append]
      omega

theorem normalizeAll_leaves (texts : List String) :
    normalizeAll (texts.map leaf) = texts.map leaf := by
  induction texts with
  | nil => rfl
  | cons text rest ih => rw [List.map_cons, normalizeAll, ih, normalize]

theorem leavesOf_leaves (texts : List String) : leavesOf (texts.map leaf) = texts := by
  induction texts with
  | nil => rfl
  | cons text rest ih => rw [List.map_cons, leavesOf, ih, leaves, List.singleton_append]

/-- Every leaf of a chain but the last one takes a composite of its own. -/
theorem depth_chain_leaves (operator : Operator) (first : String) (rest : List String) :
    (chain operator ((first :: rest).map leaf)).depth = rest.length := by
  induction rest generalizing first with
  | nil => rfl
  | cons second rest ih =>
      have grouped : chain operator ((first :: second :: rest).map leaf) =
          .composite operator [leaf first, chain operator ((second :: rest).map leaf)] := rfl
      rw [grouped, depth, greatestDepth, greatestDepth, greatestDepth, ih second, depth]
      simp

/-- Regrouping leads to composites of two operands or none and leaves conditions of
such composites alone, so that regrouping again changes nothing.  It keeps the leaves
in order, the validity and the meaning.  A valid condition of `n` leaves gets no deeper
than `n - 1`, and a composite of `n` leaves and nothing else gets as deep as that. -/
theorem normalize_is_canonical (condition : Condition) :
    Binary condition.normalize ∧
    (condition.normalize = condition ↔ Binary condition) ∧
    condition.normalize.normalize = condition.normalize ∧
    condition.normalize.leaves = condition.leaves ∧
    condition.normalize.isValid = condition.isValid ∧
    (∀ matching, condition.normalize.holds matching = condition.holds matching) ∧
    (condition.isValid = true →
      condition.normalize.depth + 1 ≤ condition.leaves.length) ∧
    ∀ operator texts, texts ≠ [] → condition = .composite operator (texts.map leaf) →
      condition.normalize.depth + 1 = condition.leaves.length := by
  refine ⟨binary_normalize condition, normalize_eq_self_iff,
    (binary_normalize condition).normalize_eq, leaves_normalize condition,
    isValid_normalize condition, fun matching => holds_normalize matching condition, ?_, ?_⟩
  · intro valid
    rw [← leaves_normalize condition]
    exact (paired_normalize valid).depth_lt
  · rintro operator texts nonempty rfl
    obtain ⟨first, rest, rfl⟩ := List.exists_cons_of_ne_nil nonempty
    rw [normalize, normalizeAll_leaves, depth_chain_leaves, leaves, leavesOf_leaves,
      List.length_cons]

def threeTexts : List String := [":hover", ".dark &", "@media (width > 1px)"]

def threeTogether : Condition := .composite .and (threeTexts.map leaf)

/-- Four leaves under both operators, one of them in a composite of its own. -/
def layered : Condition :=
  .composite .or [.composite .and [.leaf ":hover"],
    .composite .and [.leaf ":focus", .leaf ".dark &", .composite .or [.leaf ":active"]]]

/-- The layers of the one stay below its leaves, and the leaves of the other are
spread out as far as they can be. -/
theorem normalize_is_canonical_of_layers :
    (layered.isValid = true ∧ layered.normalize.depth + 1 ≤ layered.leaves.length) ∧
      threeTexts ≠ [] ∧ threeTogether = .composite .and (threeTexts.map leaf) ∧
      threeTogether.normalize.depth + 1 = threeTogether.leaves.length := by
  have valid : layered.isValid = true := by decide
  have nonempty : threeTexts ≠ [] := List.cons_ne_nil _ _
  obtain ⟨-, -, -, -, -, -, bounded, -⟩ := normalize_is_canonical layered
  obtain ⟨-, -, -, -, -, -, -, attained⟩ := normalize_is_canonical threeTogether
  exact ⟨⟨valid, bounded valid⟩, nonempty, rfl, attained .and threeTexts nonempty rfl⟩

end Condition

end ConditionalStyles
