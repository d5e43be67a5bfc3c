import ConditionalStyles.Proofs.PrintedJson

/-!
# Values of a document

The reader lets no value nest beyond its limit, and no object keep a key twice.  Both
hold for every state that it can reach: what is open and what has been read so far
leaves room above it.
-/

namespace ConditionalStyles

namespace Json

/-! ## Containers by their parts -/

theorem wellFormedItems_iff {items : List Json} :
    WellFormedItems items ↔ ∀ item ∈ items, item.WellFormed := by
  induction items with
  | nil => simp [WellFormedItems]
  | cons item rest ih => rw [WellFormedItems, ih, List.forall_mem_cons]

theorem wellFormedMembers_iff {members : Entries Json} :
    WellFormedMembers members ↔ ∀ member ∈ members, member.2.WellFormed := by
  induction members with
  | nil => simp [WellFormedMembers]
  | cons member rest ih =>
      obtain ⟨key, value⟩ := member
      rw [WellFormedMembers, ih, List.forall_mem_cons]

theorem nestingOfItems_le_iff {items : List Json} {bound : Nat} :
    nestingOfItems items ≤ bound ↔ ∀ item ∈ items, item.nesting ≤ bound := by
  induction items with
  | nil => simp [nestingOfItems]
  | cons item rest ih => rw [nestingOfItems, Nat.max_le, ih, List.forall_mem_cons]

theorem nestingOfMembers_le_iff {members : Entries Json} {bound : Nat} :
    nestingOfMembers members ≤ bound ↔ ∀ member ∈ members, member.2.nesting ≤ bound := by
  induction members with
  | nil => simp [nestingOfMembers]
  | cons member rest ih =>
      obtain ⟨key, value⟩ := member
      rw [nestingOfMembers, Nat.max_le, ih, List.forall_mem_cons]

/-! ## Room above the open containers -/

/-- A value that may stand below `depth` open containers. -/
structure Within (limit depth : Nat) (value : Json) : Prop where
  wellFormed : value.WellFormed
  nested : depth + value.nesting ≤ limit

structure MembersWithin (limit depth : Nat) (members : Entries Json) : Prop where
  room : depth < limit
  distinct : (Entries.keys members).Nodup
  each : ∀ member ∈ members, Within limit (depth + 1) member.2

structure ItemsWithin (limit depth : Nat) (items : List Json) : Prop where
  room : depth < limit
  each : ∀ item ∈ items, Within limit (depth + 1) item

section

variable {limit depth : Nat}

theorem ItemsWithin.nil (room : depth < limit) : ItemsWithin limit depth [] :=
  ⟨room, nofun⟩

theorem ItemsWithin.cons {items : List Json} (items' : ItemsWithin limit depth items)
    {item : Json} (within : Within limit (depth + 1) item) :
    ItemsWithin limit depth (item :: items) :=
  ⟨items'.room, List.forall_mem_cons.2 ⟨within, items'.each⟩⟩

theorem ItemsWithin.reverse {items : List Json} (within : ItemsWithin limit depth items) :
    ItemsWithin limit depth items.reverse :=
  ⟨within.room, fun item mem => within.each item (List.mem_reverse.1 mem)⟩

theorem MembersWithin.nil (room : depth < limit) : MembersWithin limit depth [] :=
  ⟨room, List.nodup_nil, nofun⟩

theorem MembersWithin.insert {members : Entries Json}
    (members' : MembersWithin limit depth members) (key : String) {value : Json}
    (within : Within limit (depth + 1) value) :
    MembersWithin limit depth (Entries.insert members key value) where
  room := members'.room
  distinct := Entries.nodup_keys_insert members'.distinct key value
  each member mem := by
    rcases Entries.mem_of_mem_insert mem with rfl | kept
    · exact within
    · exact members'.each member kept

theorem ItemsWithin.array {items : List Json} (within : ItemsWithin limit depth items) :
    Within limit depth (.array items) where
  wellFormed := wellFormedItems_iff.2 fun item mem => (within.each item mem).wellFormed
  nested := by
    have inside : nestingOfItems items ≤ limit - (depth + 1) :=
      nestingOfItems_le_iff.2 fun item mem => by
        have := (within.each item mem).nested
        omega
    have := within.room
    rw [nesting]
    omega

theorem MembersWithin.object {members : Entries Json}
    (within : MembersWithin limit depth members) : Within limit depth (.object members) where
  wellFormed :=
    ⟨within.distinct, wellFormedMembers_iff.2 fun member mem =>
      (within.each member mem).wellFormed⟩
  nested := by
    have inside : nestingOfMembers members ≤ limit - (depth + 1) :=
      nestingOfMembers_le_iff.2 fun member mem => by
        have := (within.each member mem).nested
        omega
    have := within.room
    rw [nesting]
    omega

end

def Open.Within (limit depth : Nat) : Open → Prop
  | .array items => ItemsWithin limit depth items
  | .object members _ => MembersWithin limit depth members

/-- Open containers, each within the room above the ones around it. -/
def StackWithin (limit : Nat) : List Open → Prop
  | [] => True
  | container :: stack => container.Within limit stack.length ∧ StackWithin limit stack

theorem StackWithin.length_le {limit : Nat} {stack : List Open}
    (within : StackWithin limit stack) : stack.length ≤ limit := by
  cases stack with
  | nil => exact Nat.zero_le limit
  | cons container stack =>
      cases container with
      | array items => exact within.1.room
      | object members key => exact within.1.room

namespace Progress

def Within (limit : Nat) : Progress → Prop
  | .beforeValue stack => StackWithin limit stack
  | .beforeFirstItem stack => stack.length < limit ∧ StackWithin limit stack
  | .beforeFirstKey stack => stack.length < limit ∧ StackWithin limit stack
  | .beforeKey stack members =>
      MembersWithin limit stack.length members ∧ StackWithin limit stack
  | .beforeColon stack members _ =>
      MembersWithin limit stack.length members ∧ StackWithin limit stack
  | .afterValue stack value =>
      Json.Within limit stack.length value ∧ StackWithin limit stack

variable {limit : Nat} {progress next : Progress} {token : Token}

theorem within_takeValue {stack : List Open} (within : StackWithin limit stack)
    (stepped : takeValue limit stack token = some next) : next.Within limit := by
  have room := within.length_le
  cases token with
  | null =>
      cases stepped
      exact ⟨⟨trivial, room⟩, within⟩
  | boolean value =>
      cases stepped
      exact ⟨⟨trivial, room⟩, within⟩
  | number value =>
      cases stepped
      exact ⟨⟨trivial, room⟩, within⟩
  | string text =>
      cases stepped
      exact ⟨⟨trivial, room⟩, within⟩
  | openArray =>
      obtain ⟨room, same⟩ := Option.ite_none_right_eq_some.1 stepped
      cases same
      exact ⟨room, within⟩
  | openObject =>
      obtain ⟨room, same⟩ := Option.ite_none_right_eq_some.1 stepped
      cases same
      exact ⟨room, within⟩
  | closeArray => cases stepped
  | closeObject => cases stepped
  | comma => cases stepped
  | colon => cases stepped

/-- Reading a token keeps what has been read within the limit. -/
theorem within_step (within : progress.Within limit)
    (stepped : progress.step limit token = some next) : next.Within limit := by
  unfold step at stepped
  split at stepped
  case h_1 => exact within_takeValue within stepped
  case h_2 =>
    -- The end of an array without items.
    cases stepped
    exact ⟨(ItemsWithin.nil within.1).array, within.2⟩
  case h_3 stack _ =>
    have opened : StackWithin limit (.array [] :: stack) := ⟨ItemsWithin.nil within.1, within.2⟩
    exact within_takeValue opened stepped
  case h_4 =>
    -- The end of an object without members.
    cases stepped
    exact ⟨(MembersWithin.nil within.1).object, within.2⟩
  case h_5 =>
    cases stepped
    exact ⟨MembersWithin.nil within.1, within.2⟩
  case h_6 =>
    cases stepped
    exact within
  case h_7 =>
    cases stepped
    exact within
  case h_8 =>
    -- The value before a comma is the next item of the array around it.
    cases stepped
    exact ⟨within.2.1.cons within.1, within.2.2⟩
  case h_9 =>
    cases stepped
    exact ⟨(within.2.1.cons within.1).reverse.array, within.2.2⟩
  case h_10 =>
    -- The value before a comma is that of the last key of the object around it.
    cases stepped
    exact ⟨within.2.1.insert _ within.1, within.2.2⟩
  case h_11 =>
    cases stepped
    exact ⟨(within.2.1.insert _ within.1).object, within.2.2⟩
  case h_12 => cases stepped

theorem within_run {tokens : List Token} (within : progress.Within limit)
    (reached : progress.run limit tokens = some next) : next.Within limit := by
  induction tokens generalizing progress with
  | nil =>
      cases reached
      exact within
  | cons token rest ih =>
      rw [run, List.foldlM_cons] at reached
      obtain ⟨middle, stepped, reached⟩ := Option.bind_eq_some_iff.1 reached
      exact ih (within_step within stepped) reached

end Progress

/-- Every value of a document nests within the limit and lists no key twice. -/
theorem within_of_parse? {text : String} {value : Json} (read : parse? text = some value) :
    Within nestingLimit 0 value := by
  obtain ⟨tokens, -, read⟩ := Option.bind_eq_some_iff.1 read
  obtain ⟨reached, ran, finished⟩ := Option.bind_eq_some_iff.1 read
  have start : Progress.Within nestingLimit Progress.start := trivial
  have within := Progress.within_run start ran
  unfold Progress.finish at finished
  split at finished
  · cases finished
    exact within.1
  · cases finished

end Json

end ConditionalStyles
