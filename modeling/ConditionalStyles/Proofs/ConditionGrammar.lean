import ConditionalStyles.Proofs.ReadBack

/-!
# The values that are conditions

Which JSON values are read as conditions is a grammar: strings, and objects with one
operator and an array of conditions under it.  What else an object holds does not
matter.  A condition that was read is written as the value it was read from, without
the members that do not matter, and reading is the same where a value must be a
condition and where it need not be.
-/

namespace ConditionalStyles

def Operator.keys : List String := [Operator.or.key, Operator.and.key]

theorem Operator.mem_keys {key : String} :
    key ∈ Operator.keys ↔ ∃ operator : Operator, operator.key = key := by
  constructor
  · intro mem
    rw [keys, List.mem_cons, List.mem_singleton] at mem
    rcases mem with rfl | rfl
    · exact ⟨.or, rfl⟩
    · exact ⟨.and, rfl⟩
  · rintro ⟨operator, rfl⟩
    cases operator <;> simp [keys]

theorem Operator.forall_iff {holds : Operator → Prop} :
    (∀ operator, holds operator) ↔ holds .or ∧ holds .and := by
  constructor
  · intro each
    exact ⟨each .or, each .and⟩
  · rintro ⟨or, and⟩ operator
    cases operator with
    | or => exact or
    | and => exact and

namespace Condition

/-- The values that stand for conditions.  An object has exactly one operator, with an
array of such values under it, and may have any other members. -/
inductive Accepted : Json → Prop where
  | leaf (text : String) : Accepted (.string text)
  | composite (operator : Operator) {members : Entries Json} {items : List Json}
      (operands : members.get? operator.key = some (.array items))
      (alone : ∀ other : Operator, other.key ∈ Entries.keys members → other = operator)
      (accepted : ∀ item ∈ items, Accepted item) :
      Accepted (.object members)

mutual

/-- A value without the members that name no operator, at every level. -/
def relevantPart : Json → Json
  | .array items => .array (relevantItems items)
  | .object members => .object (relevantMembers members)
  | other => other

def relevantItems : List Json → List Json
  | [] => []
  | item :: rest => relevantPart item :: relevantItems rest

def relevantMembers : Entries Json → Entries Json
  | [] => []
  | (key, value) :: rest =>
      if key ∈ Operator.keys then (key, relevantPart value) :: relevantMembers rest
      else relevantMembers rest

end

/-! ## One node -/

/-- An object names an operator if it has its key and no other operator's. -/
theorem operatorOf_eq_ok_iff {members : Entries Json} {operator : Operator} :
    operatorOf members = .ok operator ↔
      ∀ other : Operator, other.key ∈ Entries.keys members ↔ other = operator := by
  rw [Operator.forall_iff]
  simp only [← Entries.contains_iff, operatorOf]
  cases members.contains Operator.or.key <;> cases members.contains Operator.and.key <;>
    cases operator <;> simp

theorem decode_object_eq_ok_iff {members : Entries Json} {condition : Condition} :
    decode (.object members) = .ok condition ↔
      ∃ operator operands, operatorOf members = .ok operator ∧
        decodeMember operator.key members = .ok operands ∧
        condition = .composite operator operands := by
  rw [decode]
  cases operatorOf members with
  | error malformed => simp
  | ok operator =>
      cases decoded : decodeMember operator.key members with
      | error malformed => simp [decoded]
      | ok operands => simp [decoded, eq_comm]

theorem decodeAll_cons_eq_ok_iff {item : Json} {rest : List Json}
    {conditions : List Condition} :
    decodeAll (item :: rest) = .ok conditions ↔
      ∃ first others, decode item = .ok first ∧ decodeAll rest = .ok others ∧
        conditions = first :: others := by
  rw [decodeAll]
  cases decode item with
  | error malformed => simp
  | ok first =>
      cases decodeAll rest with
      | error malformed => simp
      | ok others => simp [eq_comm]

/-- Members of which none but that of one operator names an operator, and that one at
most once. -/
structure Sole (operator : Operator) (members : Entries Json) : Prop where
  distinct : (Entries.keys members).Nodup
  only : ∀ key ∈ Entries.keys members, key ∈ Operator.keys → key = operator.key

theorem sole_of_operatorOf {members : Entries Json} {operator : Operator}
    (distinct : (Entries.keys members).Nodup) (named : operatorOf members = .ok operator) :
    Sole operator members where
  distinct := distinct
  only := by
    intro key present names
    obtain ⟨other, rfl⟩ := Operator.mem_keys.1 names
    rw [(operatorOf_eq_ok_iff.1 named other).1 present]

section Sole

variable {operator : Operator} {name : String} {value : Json} {rest : Entries Json}

theorem Sole.tail (sole : Sole operator ((name, value) :: rest)) : Sole operator rest where
  distinct := (List.nodup_cons.1 sole.distinct).2
  only := fun key mem => sole.only key (List.mem_cons_of_mem _ mem)

theorem Sole.idle_head (sole : Sole operator ((name, value) :: rest))
    (elsewhere : name ≠ operator.key) : name ∉ Operator.keys :=
  fun names => elsewhere (sole.only name List.mem_cons_self names)

theorem Sole.idle_tail (sole : Sole operator ((operator.key, value) :: rest)) :
    ∀ key ∈ Entries.keys rest, key ∉ Operator.keys := by
  intro key mem names
  have same := sole.tail.only key mem names
  exact (List.nodup_cons.1 sole.distinct).1 (same ▸ mem)

end Sole

/-! ## Acceptance -/

mutual

theorem accepted_of_decode {value : Json} {condition : Condition}
    (decoded : decode value = .ok condition) : Accepted value := by
  match value with
  | .string text => exact .leaf text
  | .object members =>
      obtain ⟨operator, operands, named, listed, -⟩ := decode_object_eq_ok_iff.1 decoded
      obtain ⟨items, found, accepted⟩ := accepted_of_decodeMember listed
      refine .composite operator found ?_ accepted
      intro other present
      exact (operatorOf_eq_ok_iff.1 named other).1 present
  | .null | .boolean _ | .number _ | .array _ => simp [decode] at decoded

theorem accepted_of_decodeMember {key : String} {members : Entries Json}
    {operands : List Condition} (decoded : decodeMember key members = .ok operands) :
    ∃ items, members.get? key = some (.array items) ∧ ∀ item ∈ items, Accepted item := by
  match members with
  | [] => simp [decodeMember] at decoded
  | (name, value) :: rest =>
      rw [decodeMember] at decoded
      rw [Entries.get?_cons]
      split at decoded
      · rename_i here
        obtain ⟨items, rfl, accepted⟩ := accepted_of_decodeOperands decoded
        exact ⟨items, if_pos here, accepted⟩
      · rename_i elsewhere
        rw [if_neg elsewhere]
        exact accepted_of_decodeMember decoded

theorem accepted_of_decodeOperands {value : Json} {operands : List Condition}
    (decoded : decodeOperands value = .ok operands) :
    ∃ items, value = .array items ∧ ∀ item ∈ items, Accepted item := by
  match value with
  | .array items => exact ⟨items, rfl, accepted_of_decodeAll decoded⟩
  | .null | .boolean _ | .number _ | .string _ | .object _ =>
      simp [decodeOperands] at decoded

theorem accepted_of_decodeAll {items : List Json} {conditions : List Condition}
    (decoded : decodeAll items = .ok conditions) : ∀ item ∈ items, Accepted item := by
  match items with
  | [] => simp
  | item :: rest =>
      obtain ⟨first, others, here, later, -⟩ := decodeAll_cons_eq_ok_iff.1 decoded
      exact List.forall_mem_cons.2 ⟨accepted_of_decode here, accepted_of_decodeAll later⟩

end

theorem exists_decodeAll_eq_ok {items : List Json}
    (each : ∀ item ∈ items, ∃ condition, decode item = .ok condition) :
    ∃ conditions, decodeAll items = .ok conditions := by
  induction items with
  | nil => exact ⟨[], rfl⟩
  | cons item rest ih =>
      obtain ⟨first, here⟩ := each item List.mem_cons_self
      obtain ⟨others, later⟩ := ih fun other mem => each other (List.mem_cons_of_mem _ mem)
      exact ⟨first :: others, decodeAll_cons_eq_ok_iff.2 ⟨first, others, here, later, rfl⟩⟩

theorem Accepted.exists_decode_eq_ok {value : Json} (accepted : Accepted value) :
    ∃ condition, decode value = .ok condition := by
  induction accepted with
  | leaf text => exact ⟨.leaf text, rfl⟩
  | @composite operator members items operands alone accepted ih =>
      obtain ⟨conditions, decoded⟩ := exists_decodeAll_eq_ok ih
      have named : operatorOf members = .ok operator := by
        refine operatorOf_eq_ok_iff.2 fun other => ⟨alone other, ?_⟩
        rintro rfl
        exact List.mem_map_of_mem (Entries.mem_of_get?_eq_some operands)
      have listed : decodeMember operator.key members = .ok conditions := by
        rw [decodeMember_eq, operands]
        exact decoded
      exact ⟨_, decode_object_eq_ok_iff.2 ⟨operator, conditions, named, listed, rfl⟩⟩

/-! ## Relevant parts -/

theorem relevantMembers_eq_nil {members : Entries Json}
    (idle : ∀ key ∈ Entries.keys members, key ∉ Operator.keys) :
    relevantMembers members = [] := by
  induction members with
  | nil => rw [relevantMembers]
  | cons member rest ih =>
      obtain ⟨key, value⟩ := member
      rw [relevantMembers, if_neg (idle key List.mem_cons_self)]
      exact ih fun other mem => idle other (List.mem_cons_of_mem _ mem)

mutual

/-- A condition is written as the relevant part of the value that it was read from. -/
theorem relevantPart_of_decode {value : Json} {condition : Condition}
    (wellFormed : value.WellFormed) (decoded : decode value = .ok condition) :
    relevantPart value = condition.toJson := by
  match value with
  | .string text =>
      rw [decode] at decoded
      rw [← Except.ok.inj decoded, relevantPart, toJson]
      all_goals nofun
  | .object members =>
      obtain ⟨operator, operands, named, listed, rfl⟩ := decode_object_eq_ok_iff.1 decoded
      rw [Json.WellFormed] at wellFormed
      have sole := sole_of_operatorOf wellFormed.1 named
      rw [relevantPart, toJson, relevantMembers_of_decodeMember sole wellFormed.2 listed]
  | .null | .boolean _ | .number _ | .array _ => simp [decode] at decoded

theorem relevantMembers_of_decodeMember {operator : Operator} {members : Entries Json}
    {operands : List Condition} (sole : Sole operator members)
    (wellFormed : Json.WellFormedMembers members)
    (decoded : decodeMember operator.key members = .ok operands) :
    relevantMembers members = [(operator.key, .array (toJsonAll operands))] := by
  match members with
  | [] => simp [decodeMember] at decoded
  | (name, value) :: rest =>
      rw [decodeMember] at decoded
      rw [Json.WellFormedMembers] at wellFormed
      split at decoded
      · rename_i here
        subst here
        rw [relevantMembers, if_pos (Operator.mem_keys.2 ⟨operator, rfl⟩),
          relevantMembers_eq_nil sole.idle_tail,
          relevantPart_of_decodeOperands wellFormed.1 decoded]
      · rename_i elsewhere
        rw [relevantMembers, if_neg (sole.idle_head elsewhere)]
        exact relevantMembers_of_decodeMember sole.tail wellFormed.2 decoded

theorem relevantPart_of_decodeOperands {value : Json} {operands : List Condition}
    (wellFormed : value.WellFormed) (decoded : decodeOperands value = .ok operands) :
    relevantPart value = .array (toJsonAll operands) := by
  match value with
  | .array items =>
      rw [Json.WellFormed] at wellFormed
      rw [relevantPart, relevantItems_of_decodeAll wellFormed decoded]
  | .null | .boolean _ | .number _ | .string _ | .object _ =>
      simp [decodeOperands] at decoded

theorem relevantItems_of_decodeAll {items : List Json} {conditions : List Condition}
    (wellFormed : Json.WellFormedItems items) (decoded : decodeAll items = .ok conditions) :
    relevantItems items = toJsonAll conditions := by
  match items with
  | [] =>
      rw [decodeAll] at decoded
      rw [← Except.ok.inj decoded, relevantItems, toJsonAll]
  | item :: rest =>
      obtain ⟨first, others, here, later, rfl⟩ := decodeAll_cons_eq_ok_iff.1 decoded
      rw [Json.WellFormedItems] at wellFormed
      rw [relevantItems, toJsonAll, relevantPart_of_decode wellFormed.1 here,
        relevantItems_of_decodeAll wellFormed.2 later]

end

/-! ## Both readers -/

theorem value_ofJson_eq_some_iff {value : Json} {condition : Condition} :
    (ofJson value).value = some condition ↔ decode value = .ok condition := by
  rw [ofJson]
  cases decode value <;> simp

theorem value_require_eq_ok_iff {value : Json} {condition : Condition} :
    (require value).value = .ok condition ↔ (ofJson value).value = some condition := by
  rw [require, Reported.value_bind]
  cases (ofJson value).value <;> simp

/-- A value is read as a condition exactly if the grammar accepts it.  If no object in the
value lists a key twice, the condition is written as the relevant part of the value and
read back from that as it was.  It is also what the value is read as where it must be a
condition, and nothing else is. -/
theorem reader_accepts_its_grammar (value : Json) :
    ((∃ condition, (ofJson value).value = some condition) ↔ Accepted value) ∧
    (∀ condition, value.WellFormed → (ofJson value).value = some condition →
      condition.toJson = relevantPart value ∧
        (ofJson (relevantPart value)).value = some condition) ∧
    ∀ condition, (require value).value = .ok condition ↔
      (ofJson value).value = some condition := by
  refine ⟨?_, ?_, fun condition => value_require_eq_ok_iff⟩
  · simp only [value_ofJson_eq_some_iff]
    constructor
    · rintro ⟨condition, decoded⟩
      exact accepted_of_decode decoded
    · exact Accepted.exists_decode_eq_ok
  · intro condition wellFormed read
    rw [value_ofJson_eq_some_iff] at read ⊢
    rw [relevantPart_of_decode wellFormed read]
    exact ⟨rfl, decode_toJson condition⟩

/-- A composite with members that do not matter, in front of its operator, behind it
and in an operand. -/
def annotated : Json :=
  .object [("note", .array [.object [("or", .null)]]),
    ("and", .array [.string ":hover", .object [("or", .array []), ("AND", .boolean true)]]),
    ("weight", .object [])]

/-- What it is read as is written without them. -/
theorem annotated_is_read :
    annotated.WellFormed ∧
      (ofJson annotated).value =
        some (.composite .and [.leaf ":hover", .composite .or []]) ∧
      (composite .and [.leaf ":hover", .composite .or []]).toJson = relevantPart annotated ∧
      (ofJson (relevantPart annotated)).value =
        some (.composite .and [.leaf ":hover", .composite .or []]) := by
  have wellFormed : annotated.WellFormed := by
    simp [annotated, Json.WellFormed, Json.WellFormedMembers, Json.WellFormedItems, Entries.keys]
  have read : (ofJson annotated).value =
      some (.composite .and [.leaf ":hover", .composite .or []]) := rfl
  exact ⟨wellFormed, read, (reader_accepts_its_grammar annotated).2.1 _ wellFormed read⟩

end Condition

end ConditionalStyles
