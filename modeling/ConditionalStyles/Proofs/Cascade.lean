import ConditionalStyles.Proofs.References

/-!
# Values in the cascade

The declarations in force are those of the universal rule and of the rules whose
leaves match.  A property takes its last value among them, and this value is
valid if its references resolve: a reference to a property without a valid value
takes its fallback, and makes the whole value invalid if it has none.
-/

namespace ConditionalStyles

namespace Css

/-! ## Resolving references -/

def resolves (valid : String → Bool) (text : List Char) : Bool :=
  match text with
  | [] => true
  | character :: rest =>
      match _starts : Reference.ofText? (character :: rest) with
      | none => resolves valid rest
      | some { name, fallback := none, after } => valid name && resolves valid after
      | some { name, fallback := some fallback, after } =>
          (valid name || resolves valid fallback) && resolves valid after
termination_by text.length
decreasing_by
  · exact Nat.lt_succ_self _
  · exact (Reference.length_lt _starts).1
  · exact (Reference.length_lt _starts).2 _ rfl
  · exact (Reference.length_lt _starts).1

/-- Whether a property has a valid value.  While its value is resolved the property
itself is taken as undeclared, so that no property is valid through itself.  The
properties of a hook never refer to each other in a circle, because each refers only
to the nodes below its own. -/
def isValid (values : Entries String) (name : String) : Bool :=
  match _declared : values.get? name with
  | none => false
  | some text => text != "initial" && resolves (isValid (values.erase name)) text.toList
termination_by values.length
decreasing_by exact Entries.length_erase_lt _declared

/-- The truth value that the pair of a hook stands for, if exactly one of its
slots is valid. -/
def truth? (values : Entries String) (id : String) : Option Bool :=
  match isValid values (Slot.whenFalse.property id),
    isValid values (Slot.whenTrue.property id) with
  | true, false => some true
  | false, true => some false
  | _, _ => none

section

variable {valid : String → Bool}

@[simp] theorem resolves_nil : resolves valid [] = true := by
  rw [resolves]

@[simp] theorem resolves_space (rest : List Char) :
    resolves valid (' ' :: rest) = resolves valid rest := by
  have none : Reference.ofText? (' ' :: rest) = none := rfl
  rw [resolves]
  split <;> simp_all

theorem resolves_bare {name : String} (isName : IsName name) (after : List Char) :
    resolves valid ('v' :: 'a' :: 'r' :: '(' :: (name.toList ++ ')' :: after)) =
      (valid name && resolves valid after) := by
  have starts := Reference.ofText?_bare isName after
  rw [resolves]
  split <;> simp_all

theorem resolves_fallback {name : String} (isName : IsName name) {fallback : List Char}
    (balanced : Balanced fallback) (after : List Char) :
    resolves valid
        ('v' :: 'a' :: 'r' :: '(' :: (name.toList ++ ',' :: (fallback ++ ')' :: after))) =
      ((valid name || resolves valid fallback) && resolves valid after) := by
  have starts := Reference.ofText?_fallback isName balanced after
  rw [resolves]
  split <;> simp_all

theorem resolves_either {first second : String} (isName : IsName first)
    (isName' : IsName second) :
    resolves valid (SlotValue.either first second).text.toList =
      (valid first || valid second) := by
  have inner : Balanced ('v' :: 'a' :: 'r' :: '(' :: (second.toList ++ [')'])) :=
    isName'.balanced.reference .nil
  have text_eq : (SlotValue.either first second).text.toList =
      'v' :: 'a' :: 'r' :: '(' :: (first.toList ++ ',' ::
        (('v' :: 'a' :: 'r' :: '(' :: (second.toList ++ [')'])) ++ [')'])) := by
    simp [SlotValue.text]
  rw [text_eq, resolves_fallback isName inner, resolves_bare isName', resolves_nil]
  simp

theorem resolves_both {first second : String} (isName : IsName first)
    (isName' : IsName second) :
    resolves valid (SlotValue.both first second).text.toList =
      (valid first && valid second) := by
  have text_eq : (SlotValue.both first second).text.toList =
      'v' :: 'a' :: 'r' :: '(' :: (first.toList ++ ')' :: ' ' ::
        'v' :: 'a' :: 'r' :: '(' :: (second.toList ++ [')'])) := by
    simp [SlotValue.text]
  rw [text_eq, resolves_bare isName, resolves_space, resolves_bare isName', resolves_nil]
  simp

end

section

variable {values : Entries String} {name first second : String}

theorem isValid_of_get? {text : String} (declared : values.get? name = some text) :
    isValid values name =
      (text != "initial" && resolves (isValid (values.erase name)) text.toList) := by
  rw [isValid]
  split <;> simp_all

theorem isValid_invalid (declared : values.get? name = some SlotValue.invalid.text) :
    isValid values name = false := by
  rw [isValid_of_get? declared]
  rfl

theorem isValid_blank (declared : values.get? name = some SlotValue.blank.text) :
    isValid values name = true := by
  rw [isValid_of_get? declared]
  simp [SlotValue.text]

theorem isValid_either (isName : IsName first) (isName' : IsName second)
    (declared : values.get? name = some (SlotValue.either first second).text) :
    isValid values name =
      (isValid (values.erase name) first || isValid (values.erase name) second) := by
  have valued : (SlotValue.either first second).text ≠ "initial" := by
    intro same
    have spelled := congrArg String.toList same
    simp [SlotValue.text] at spelled
  rw [isValid_of_get? declared, resolves_either isName isName']
  simp [valued]

theorem isValid_both (isName : IsName first) (isName' : IsName second)
    (declared : values.get? name = some (SlotValue.both first second).text) :
    isValid values name =
      (isValid (values.erase name) first && isValid (values.erase name) second) := by
  have valued : (SlotValue.both first second).text ≠ "initial" := by
    intro same
    have spelled := congrArg String.toList same
    simp [SlotValue.text] at spelled
  rw [isValid_of_get? declared, resolves_both isName isName']
  simp [valued]

end

end Css

end ConditionalStyles
