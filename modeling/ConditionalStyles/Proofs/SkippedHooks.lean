import ConditionalStyles.Proofs.ConditionGrammar

/-!
# Hooks that are skipped

A configuration document is read entry by entry.  An entry whose value is a condition
declares its hook; any other entry is skipped with a warning.  Why a value is no
condition is decided by the first of its nodes that is malformed in itself, from a node
to its operands and from left to right.  If that node has both operators, a warning
about it comes before the one about the entry, and no other node is spoken of.
-/

namespace ConditionalStyles

namespace Condition

/-! ## Nodes of a value -/

mutual

/-- The nodes of a value: a node before its operands, and these from left to right. -/
def walk : Json → List Json
  | .object members => .object members :: walkMembers members
  | other => [other]

def walkMembers : Entries Json → List Json
  | [] => []
  | (key, value) :: rest =>
      if key ∈ Operator.keys then walkOperands value ++ walkMembers rest
      else walkMembers rest

def walkOperands : Json → List Json
  | .array items => walkAll items
  | _ => []

def walkAll : List Json → List Json
  | [] => []
  | item :: rest => walk item ++ walkAll rest

end

def isList : Json → Bool
  | .array _ => true
  | _ => false

/-- Whether a node is malformed in itself, whatever its operands are: it is neither a
string nor an object with exactly one operator and an array under it. -/
def isMalformed : Json → Bool
  | .string _ => false
  | .object members =>
      match Entries.get? members Operator.or.key, Entries.get? members Operator.and.key with
      | some operands, none => !isList operands
      | none, some operands => !isList operands
      | _, _ => true
  | _ => true

def isMixed : Json → Bool
  | .object members =>
      Entries.contains members Operator.or.key && Entries.contains members Operator.and.key
  | _ => false

def firstMalformed? (value : Json) : Option Json :=
  (walk value).find? isMalformed

def mixWarnings (node : Json) : List Warning :=
  if isMixed node then [.mixedOperators node] else []

/-! ## Failures -/

def reason (node : Json) : Malformed :=
  if isMixed node then .mixedOperators node else .unrecognized

theorem warnings_reason (node : Json) : (reason node).warnings = mixWarnings node := by
  unfold reason mixWarnings
  split <;> rfl

def failure? {α : Type} : Except Malformed α → Option Malformed
  | .ok _ => none
  | .error malformed => some malformed

theorem failure?_decodeAll_cons (item : Json) (rest : List Json) :
    failure? (decodeAll (item :: rest)) =
      (failure? (decode item)).or (failure? (decodeAll rest)) := by
  rw [decodeAll]
  cases decode item with
  | error malformed => rfl
  | ok first => cases decodeAll rest <;> rfl

theorem isMalformed_of_operatorOf_error {members : Entries Json} {malformed : Malformed}
    (failed : operatorOf members = .error malformed) :
    isMalformed (.object members) = true ∧ reason (.object members) = malformed := by
  simp only [operatorOf, isMalformed, reason, isMixed, Entries.contains_eq_isSome] at failed ⊢
  generalize Entries.get? members Operator.or.key = first,
    Entries.get? members Operator.and.key = second at failed ⊢
  cases first <;> cases second <;> simp_all

/-- An object with exactly one operator is malformed if the operands are not in an
array. -/
theorem isMalformed_of_operatorOf_ok {members : Entries Json} {operator : Operator}
    (named : operatorOf members = .ok operator) :
    ∃ operands, members.get? operator.key = some operands ∧
      isMixed (.object members) = false ∧
      isMalformed (.object members) = !isList operands := by
  simp only [operatorOf, isMalformed, isMixed, Entries.contains_eq_isSome] at named ⊢
  cases operator <;>
    generalize Entries.get? members Operator.or.key = first,
      Entries.get? members Operator.and.key = second at named ⊢ <;>
    cases first <;> cases second <;> simp_all

theorem failure?_decode_object {members : Entries Json} {operator : Operator}
    (named : operatorOf members = .ok operator) :
    failure? (decode (.object members)) = failure? (decodeMember operator.key members) := by
  rw [decode, named]
  cases decoded : decodeMember operator.key members <;> simp [decoded, failure?]

/-- An object that is malformed in itself cannot be read, and any other one has an array
of operands under its operator. -/
theorem object_cases (members : Entries Json) :
    (isMalformed (.object members) = true ∧
      failure? (decode (.object members)) = some (reason (.object members))) ∨
    ∃ operator items, isMalformed (.object members) = false ∧
      operatorOf members = .ok operator ∧
      members.get? operator.key = some (.array items) := by
  cases named : operatorOf members with
  | error cause =>
      obtain ⟨malformed, rfl⟩ := isMalformed_of_operatorOf_error named
      refine .inl ⟨malformed, ?_⟩
      rw [decode, named]
      rfl
  | ok operator =>
      obtain ⟨operands, found, unmixed, malformed⟩ := isMalformed_of_operatorOf_ok named
      cases operands with
      | array items => exact .inr ⟨operator, items, malformed, rfl, found⟩
      | null | boolean | number | string | object =>
          refine .inl ⟨malformed, ?_⟩
          rw [failure?_decode_object named, decodeMember_eq, found, reason, unmixed]
          rfl

theorem walkMembers_eq_nil {members : Entries Json}
    (idle : ∀ key ∈ Entries.keys members, key ∉ Operator.keys) :
    walkMembers members = [] := by
  induction members with
  | nil => rw [walkMembers]
  | cons member rest ih =>
      obtain ⟨key, value⟩ := member
      rw [walkMembers, if_neg (idle key List.mem_cons_self)]
      exact ih fun other mem => idle other (List.mem_cons_of_mem _ mem)

mutual

/-- Reading fails for the reason that the first malformed node gives. -/
theorem failure?_decode {value : Json} (wellFormed : value.WellFormed) :
    failure? (decode value) = ((walk value).find? isMalformed).map reason := by
  match value with
  | .string text => rfl
  | .object members =>
      rw [Json.WellFormed] at wellFormed
      rw [walk]
      rcases object_cases members with ⟨malformed, failed⟩ | ⟨operator, items, sound, named, found⟩
      · rw [failed, List.find?_cons_of_pos malformed, Option.map_some]
      · rw [List.find?_cons_of_neg (by simp [sound]), failure?_decode_object named]
        exact failure?_decodeMember (sole_of_operatorOf wellFormed.1 named) wellFormed.2 found
  | .null | .boolean _ | .number _ | .array _ => rfl

theorem failure?_decodeMember {operator : Operator} {members : Entries Json}
    {items : List Json} (sole : Sole operator members)
    (wellFormed : Json.WellFormedMembers members)
    (found : members.get? operator.key = some (.array items)) :
    failure? (decodeMember operator.key members) =
      ((walkMembers members).find? isMalformed).map reason := by
  match members with
  | [] => simp at found
  | (name, value) :: rest =>
      rw [Json.WellFormedMembers] at wellFormed
      rw [Entries.get?_cons] at found
      rw [decodeMember]
      split at found
      · rename_i here
        subst here
        rw [if_pos rfl, walkMembers, if_pos (Operator.mem_keys.2 ⟨operator, rfl⟩),
          walkMembers_eq_nil sole.idle_tail, List.append_nil]
        exact failure?_decodeOperands wellFormed.1 (Option.some.inj found)
      · rename_i elsewhere
        rw [if_neg elsewhere, walkMembers, if_neg (sole.idle_head elsewhere)]
        exact failure?_decodeMember sole.tail wellFormed.2 found

theorem failure?_decodeOperands {value : Json} {items : List Json}
    (wellFormed : value.WellFormed) (isArray : value = .array items) :
    failure? (decodeOperands value) = ((walkOperands value).find? isMalformed).map reason := by
  match value with
  | .array items =>
      rw [Json.WellFormed] at wellFormed
      rw [decodeOperands, walkOperands]
      exact failure?_decodeAll wellFormed
  | .null | .boolean _ | .number _ | .string _ | .object _ => cases isArray

theorem failure?_decodeAll {items : List Json} (wellFormed : Json.WellFormedItems items) :
    failure? (decodeAll items) = ((walkAll items).find? isMalformed).map reason := by
  match items with
  | [] => rfl
  | item :: rest =>
      rw [Json.WellFormedItems] at wellFormed
      rw [failure?_decodeAll_cons, failure?_decode wellFormed.1, failure?_decodeAll wellFormed.2,
        walkAll, List.find?_append, Option.map_or]

end

/-! ## Warnings about conditions -/

variable {value : Json} (wellFormed : value.WellFormed)
include wellFormed

theorem warnings_ofJson :
    (ofJson value).warnings = ((firstMalformed? value).map mixWarnings).getD [] := by
  have failed := failure?_decode wellFormed
  rw [← firstMalformed?] at failed
  rw [ofJson]
  cases decoded : decode value with
  | ok condition =>
      rw [decoded, failure?, eq_comm, Option.map_eq_none_iff] at failed
      rw [failed]
      rfl
  | error malformed =>
      rw [decoded, failure?, eq_comm, Option.map_eq_some_iff] at failed
      obtain ⟨node, found, rfl⟩ := failed
      rw [found]
      exact warnings_reason node

/-- A value is no condition exactly if one of its nodes is malformed in itself. -/
theorem value_ofJson_eq_none_iff :
    (ofJson value).value = none ↔ ∃ node ∈ walk value, isMalformed node = true := by
  rw [← List.find?_isSome, ← Option.isSome_map, ← failure?_decode wellFormed, ofJson]
  cases decode value <;> simp [failure?]

end Condition

namespace Configuration

/-! ## Entries of a document -/

def entryHook? (entry : String × Json) : Option (String × Condition) :=
  (Condition.ofJson entry.2).value.map fun condition => (entry.1, condition)

/-- The warnings that an entry gives rise to: none if its value is a condition, and else
one about the entry, after one about the first malformed node if that has both
operators. -/
def entryWarnings (entry : String × Json) : List Warning :=
  match (Condition.ofJson entry.2).value with
  | some _ => []
  | none =>
      ((Condition.firstMalformed? entry.2).map Condition.mixWarnings).getD [] ++
        [.skippedHook entry.1 entry.2]

/-- The texts of these warnings, with the node and the entry that they are about. -/
def entryMessages (entry : String × Json) : List String :=
  match (Condition.ofJson entry.2).value with
  | some _ => []
  | none =>
      (((Condition.firstMalformed? entry.2).filter Condition.isMixed).map fun node =>
        "Hook condition mixes `or` and `and` in one node: " ++ node.compact).toList ++
        ["Skipping hook `" ++ entry.1 ++ "`: unrecognized condition " ++ entry.2.compact]

theorem map_message_entryWarnings (entry : String × Json) :
    (entryWarnings entry).map Warning.message = entryMessages entry := by
  rw [entryWarnings, entryMessages]
  cases (Condition.ofJson entry.2).value with
  | some condition => rfl
  | none =>
      cases Condition.firstMalformed? entry.2 with
      | none => simp [Warning.message_skippedHook]
      | some node =>
          cases mixed : Condition.isMixed node <;>
            simp [Condition.mixWarnings, Warning.message_mixedOperators,
              Warning.message_skippedHook, Option.filter, mixed]

theorem warnings_insertMember (configuration : Configuration) {entry : String × Json}
    (wellFormed : entry.2.WellFormed) :
    (configuration.insertMember entry).warnings = entryWarnings entry := by
  rw [insertMember, Reported.warnings_bind, entryWarnings]
  cases read : (Condition.ofJson entry.2).value with
  | some condition =>
      rw [Condition.ofJson, Condition.value_ofJson_eq_some_iff.1 read]
      rfl
  | none =>
      rw [Condition.warnings_ofJson wellFormed]
      rfl

theorem mem_keys_entryHook? {entry : String × Json} {name : String}
    (mem : name ∈ Entries.keys (entryHook? entry).toList) : name = entry.1 := by
  rw [entryHook?] at mem
  cases read : (Condition.ofJson entry.2).value with
  | some condition => simpa [read, Entries.keys] using mem
  | none => simp [read, Entries.keys] at mem

theorem hooks_insertMember {configuration : Configuration} {entry : String × Json}
    (absent : entry.1 ∉ Entries.keys configuration.hooks) :
    (configuration.insertMember entry).value.hooks =
      configuration.hooks ++ (entryHook? entry).toList := by
  rw [insertMember, Reported.value_bind, entryHook?]
  cases (Condition.ofJson entry.2).value with
  | some condition => exact hooks_insert_of_not_mem absent condition
  | none => exact (List.append_nil _).symm

theorem warnings_foldlM_insertMember {members : Entries Json}
    (wellFormed : Json.WellFormedMembers members) (start : Configuration) :
    (members.foldlM insertMember start).warnings = members.flatMap entryWarnings := by
  induction members generalizing start with
  | nil => rfl
  | cons member rest ih =>
      rw [List.foldlM_cons, Reported.warnings_bind, warnings_insertMember start wellFormed.1,
        ih wellFormed.2, List.flatMap_cons]

theorem hooks_foldlM_insertMember {members : Entries Json}
    (distinct : (Entries.keys members).Nodup) {start : Configuration}
    (absent : ∀ name ∈ Entries.keys members, name ∉ Entries.keys start.hooks) :
    (members.foldlM insertMember start).value.hooks =
      start.hooks ++ members.filterMap entryHook? := by
  induction members generalizing start with
  | nil => exact (List.append_nil _).symm
  | cons member rest ih =>
      obtain ⟨unused, distinct⟩ := List.nodup_cons.1 distinct
      have step := hooks_insertMember (absent member.1 List.mem_cons_self)
      have stillAbsent : ∀ name ∈ Entries.keys rest,
          name ∉ Entries.keys (start.insertMember member).value.hooks := by
        intro name mem declared
        rw [step, Entries.keys_append, List.mem_append] at declared
        rcases declared with before | now
        · exact absent name (List.mem_cons_of_mem _ mem) before
        · exact unused (mem_keys_entryHook? now ▸ mem)
      rw [List.foldlM_cons, Reported.value_bind, ih distinct stillAbsent, step,
        List.append_assoc]
      cases hook : entryHook? member <;> simp [hook]

/-- An object that lists no key twice, at any level, is read as the configuration of those
of its entries whose values are conditions, in order.  Every other entry gives rise to a
warning about it, after one about the first malformed node of its value if that has both
operators, and there are no other warnings; their texts quote the node, and the name and
the value of the entry.  A value is no condition exactly if some node of it is malformed in
itself.  What is no object is no configuration. -/
theorem loading_accounts_for_every_entry :
    (∀ members, (Json.object members).WellFormed →
      ∃ configuration,
        ofJson (.object members) =
          { warnings := members.flatMap entryWarnings, value := .ok configuration } ∧
        configuration.hooks = members.filterMap entryHook? ∧
        (ofJson (.object members)).warnings.map Warning.message =
          members.flatMap entryMessages) ∧
    (∀ value, value.WellFormed →
      ((Condition.ofJson value).value = none ↔
        ∃ node ∈ Condition.walk value, Condition.isMalformed node = true)) ∧
    ∀ value, (∀ members, value ≠ .object members) →
      ofJson value = pure (.error (.notObject value)) ∧
        (Malformed.notObject value).message =
          "Hook configuration must be a JSON object, got " ++ value.compact := by
  refine ⟨?_, fun value => Condition.value_ofJson_eq_none_iff, ?_⟩
  · intro members wellFormed
    rw [Json.WellFormed] at wellFormed
    have loaded : ofJson (.object members) =
        { warnings := members.flatMap entryWarnings, value := .ok (ofMembers members).value } := by
      rw [← warnings_foldlM_insertMember wellFormed.2 empty, ← ofMembers, ofJson]
      exact congrArg (Reported.mk · _) (List.append_nil _)
    refine ⟨(ofMembers members).value, loaded, ?_, ?_⟩
    · exact hooks_foldlM_insertMember wellFormed.1 (by simp [empty])
    · simp only [loaded, List.map_flatMap, map_message_entryWarnings]
  · intro value notObject
    cases value with
    | object members => exact absurd rfl (notObject members)
    | null | boolean | number | string | array => exact ⟨rfl, rfl⟩

def mixedNode : Json := .object [("or", .array [.null]), ("and", .string ":hover")]

def mixedFirst : Json :=
  .object [("and", .array [.string ":focus", .object [("or", .array [mixedNode])], .null])]

def mixedSecond : Json := .object [("or", .array [.array [], mixedNode])]

/-- A document with hooks at both ends and malformed values between them. -/
def patchyMembers : Entries Json :=
  [("plain", .string "nope"), ("size", .boolean true), ("late", mixedSecond),
    ("early", mixedFirst),
    ("either", .object [("note", .null), ("or", .array [.string ":a", .string ":b"])])]

/-- Of a malformed value nothing but its first malformed node is spoken of. -/
theorem loading_accounts_for_patchy_members :
    ((Json.object patchyMembers).WellFormed ∧
      ∃ configuration,
        ofJson (.object patchyMembers) =
          { warnings :=
              [.skippedHook "size" (.boolean true), .skippedHook "late" mixedSecond,
                .mixedOperators mixedNode, .skippedHook "early" mixedFirst]
            value := .ok configuration } ∧
        configuration.hooks =
          [("plain", .leaf "nope"),
            ("either", .composite .or [.leaf ":a", .leaf ":b"])] ∧
        (ofJson (.object patchyMembers)).warnings.map Warning.message =
          ["Skipping hook `size`: unrecognized condition true",
            "Skipping hook `late`: unrecognized condition " ++
              "\x7b\"or\":[[],\x7b\"or\":[null],\"and\":\":hover\"\x7d]\x7d",
            "Hook condition mixes `or` and `and` in one node: " ++
              "\x7b\"or\":[null],\"and\":\":hover\"\x7d",
            "Skipping hook `early`: unrecognized condition " ++
              "\x7b\"and\":[\":focus\",\x7b\"or\":[\x7b\"or\":[null]," ++
              "\"and\":\":hover\"\x7d]\x7d,null]\x7d"]) ∧
    (mixedFirst.WellFormed ∧ mixedNode ∈ Condition.walk mixedFirst ∧
      (Condition.ofJson mixedFirst).value = none) ∧
    (∀ members, Json.array [] ≠ .object members) ∧
      ofJson (.array []) = pure (.error (.notObject (.array []))) := by
  have wellFormed : (Json.object patchyMembers).WellFormed := by
    simp [patchyMembers, mixedFirst, mixedSecond, mixedNode, Json.WellFormed,
      Json.WellFormedMembers, Json.WellFormedItems, Entries.keys]
  have mixedWellFormed : mixedFirst.WellFormed := by
    simp [mixedFirst, mixedNode, Json.WellFormed, Json.WellFormedMembers,
      Json.WellFormedItems, Entries.keys]
  have mem : mixedNode ∈ Condition.walk mixedFirst :=
    .tail _ (.tail _ (.tail _ (.head _)))
  have noObject : ∀ members, Json.array [] ≠ .object members := nofun
  obtain ⟨loaded, rejected, failed⟩ := loading_accounts_for_every_entry
  obtain ⟨configuration, read, hooks, texts⟩ := loaded patchyMembers wellFormed
  refine ⟨⟨wellFormed, configuration, read, hooks, texts.trans ?_⟩,
    ⟨mixedWellFormed, mem, (rejected mixedFirst mixedWellFormed).2 ⟨mixedNode, mem, rfl⟩⟩,
    noObject, (failed _ noObject).1⟩
  decide +kernel

end Configuration

end ConditionalStyles
