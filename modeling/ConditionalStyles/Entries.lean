/-!
# Ordered entries

Configurations, style objects and JSON objects are lists of named entries in
which the order is part of the value.  A key is written either in place, so
that the first write fixes its position, or at the end, so that the last write
does.  No operation below ever lists a key twice when its input does not.
-/

namespace ConditionalStyles

/-- Named values in order. -/
abbrev Entries (α : Type) := List (String × α)

namespace Entries

variable {α β : Type}

def keys (entries : Entries α) : List String :=
  entries.map Prod.fst

/-- The value of a key, the first one where the key is repeated. -/
def get? (entries : Entries α) (key : String) : Option α :=
  List.lookup key entries

def contains (entries : Entries α) (key : String) : Bool :=
  entries.keys.contains key

/-- Write a value: a present key keeps its position, a new one goes to the end. -/
def insert (entries : Entries α) (key : String) (value : α) : Entries α :=
  match entries with
  | [] => [(key, value)]
  | (name, old) :: rest =>
      if name = key then (key, value) :: rest
      else (name, old) :: insert rest key value

def erase (entries : Entries α) (key : String) : Entries α :=
  entries.filter fun entry => entry.1 != key

/-- Write a value at the end, wherever the key stood before. -/
def insertLast (entries : Entries α) (key : String) (value : α) : Entries α :=
  entries.erase key ++ [(key, value)]

def moveToEnd (entries : Entries α) (key : String) : Entries α :=
  match entries.get? key with
  | some value => entries.insertLast key value
  | none => entries

/-- Write a value in place, or at the end if `last` is set. -/
def write (last : Bool) (entries : Entries α) (key : String) (value : α) :
    Entries α :=
  if last then entries.insertLast key value else entries.insert key value

/-- Entries written one after the other: a repeated key keeps its first
position and takes its last value. -/
def ofList (entries : List (String × α)) : Entries α :=
  entries.foldl (fun written entry => Entries.insert written entry.1 entry.2) []

def mapValues (f : α → β) (entries : Entries α) : Entries β :=
  entries.map fun entry => (entry.1, f entry.2)

/-! ## Keys and values after each operation -/

@[simp] theorem keys_nil : keys ([] : Entries α) = [] := rfl

@[simp] theorem keys_cons (key : String) (value : α) (rest : Entries α) :
    keys ((key, value) :: rest) = key :: keys rest := rfl

@[simp] theorem keys_append (left right : Entries α) :
    keys (left ++ right) = keys left ++ keys right := by
  simp [keys]

theorem not_mem_keys_of_nodup {before after : Entries α} {key : String} {value : α}
    (distinct : (keys (before ++ (key, value) :: after)).Nodup) : key ∉ keys before := by
  rw [keys_append, List.nodup_append] at distinct
  obtain ⟨-, -, apart⟩ := distinct
  exact fun mem => apart key mem key List.mem_cons_self rfl

@[simp] theorem keys_mapValues (f : α → β) (entries : Entries α) :
    keys (mapValues f entries) = keys entries := by
  simp [keys, mapValues]

theorem contains_iff {entries : Entries α} {key : String} :
    entries.contains key = true ↔ key ∈ keys entries := by
  simp [contains]

@[simp] theorem get?_nil (key : String) : get? ([] : Entries α) key = none := rfl

@[simp] theorem get?_cons (entries : Entries α) (name key : String) (value : α) :
    get? ((name, value) :: entries) key =
      if name = key then some value else get? entries key := by
  simp only [get?, List.lookup_cons]
  by_cases same : key = name
  · subst same; simp
  · have distinct : (key == name) = false := by simpa using same
    simp [distinct, Ne.symm same]

theorem get?_eq_none_iff {entries : Entries α} {key : String} :
    get? entries key = none ↔ key ∉ keys entries := by
  induction entries with
  | nil => simp
  | cons entry rest ih =>
      obtain ⟨name, value⟩ := entry
      by_cases same : name = key
      · simp [same]
      · simp [same, ih, Ne.symm same]

theorem contains_eq_isSome (entries : Entries α) (key : String) :
    entries.contains key = (get? entries key).isSome := by
  rw [Bool.eq_iff_iff, contains_iff, Option.isSome_iff_ne_none, ne_eq, get?_eq_none_iff,
    Decidable.not_not]

theorem mem_of_get?_eq_some {entries : Entries α} {key : String} {value : α}
    (present : get? entries key = some value) : (key, value) ∈ entries := by
  induction entries with
  | nil => simp at present
  | cons entry rest ih =>
      obtain ⟨name, first⟩ := entry
      rw [get?_cons] at present
      split at present
      · rename_i same
        rw [same, Option.some.inj present]
        exact List.mem_cons_self
      · exact List.mem_cons_of_mem _ (ih present)

theorem get?_eq_some_of_mem {entries : Entries α} (distinct : (keys entries).Nodup)
    {key : String} {value : α} (mem : (key, value) ∈ entries) :
    get? entries key = some value := by
  induction entries with
  | nil => simp at mem
  | cons entry rest ih =>
      obtain ⟨name, first⟩ := entry
      obtain ⟨absent, distinct⟩ := List.nodup_cons.1 distinct
      rw [get?_cons]
      rcases List.mem_cons.1 mem with same | later
      · obtain ⟨rfl, rfl⟩ := Prod.mk.inj same
        rw [if_pos rfl]
      · have other : name ≠ key := by
          rintro rfl
          exact absent (List.mem_map.2 ⟨_, later, rfl⟩)
        rw [if_neg other]
        exact ih distinct later

/-- Entries without a repeated key are the same up to their order if every key has the
same value in them. -/
theorem perm_of_get?_eq {entries entries' : Entries α}
    (distinct : (keys entries).Nodup) (distinct' : (keys entries').Nodup)
    (same : ∀ key, get? entries key = get? entries' key) : entries.Perm entries' := by
  have nodup {entries : Entries α} (distinct : (keys entries).Nodup) : entries.Nodup :=
    (List.pairwise_map.1 distinct).imp fun different equal => different (congrArg _ equal)
  have listed {entries : Entries α} (distinct : (keys entries).Nodup) (key : String)
      (value : α) : (key, value) ∈ entries ↔ get? entries key = some value :=
    ⟨get?_eq_some_of_mem distinct, mem_of_get?_eq_some⟩
  apply (List.perm_ext_iff_of_nodup (nodup distinct) (nodup distinct')).2
  rintro ⟨key, value⟩
  rw [listed distinct, listed distinct', same]

theorem get?_mapValues (f : α → β) (entries : Entries α) (key : String) :
    get? (entries.mapValues f) key = (get? entries key).map f := by
  induction entries with
  | nil => rfl
  | cons entry rest ih =>
      obtain ⟨name, value⟩ := entry
      have step : mapValues f ((name, value) :: rest) = (name, f value) :: mapValues f rest :=
        rfl
      rw [step, get?_cons, get?_cons, ih]
      split <;> rfl

theorem keys_insert (entries : Entries α) (key : String) (value : α) :
    keys (entries.insert key value) =
      if key ∈ keys entries then keys entries else keys entries ++ [key] := by
  induction entries with
  | nil => simp [insert]
  | cons entry rest ih =>
      obtain ⟨name, old⟩ := entry
      by_cases same : name = key
      · simp [insert, same]
      · by_cases present : key ∈ keys rest <;>
          simp [insert, same, ih, present, Ne.symm same]

theorem insert_of_not_mem {entries : Entries α} {key : String}
    (absent : key ∉ keys entries) (value : α) :
    entries.insert key value = entries ++ [(key, value)] := by
  induction entries with
  | nil => rfl
  | cons entry rest ih =>
      obtain ⟨name, old⟩ := entry
      rw [keys_cons, List.mem_cons, not_or] at absent
      rw [insert, if_neg (Ne.symm absent.1), ih absent.2, List.cons_append]

theorem get?_insert (entries : Entries α) (key name : String) (value : α) :
    get? (entries.insert key value) name =
      if key = name then some value else get? entries name := by
  induction entries with
  | nil => simp [insert]
  | cons entry rest ih =>
      obtain ⟨first, old⟩ := entry
      by_cases same : first = key
      · subst same
        by_cases wanted : first = name <;> simp [insert, wanted]
      · by_cases wanted : first = name
        · subst wanted
          simp [insert, same, Ne.symm same]
        · simp [insert, same, wanted, ih]

theorem mem_of_mem_insert {entries : Entries α} {key : String} {value : α}
    {entry : String × α} (mem : entry ∈ entries.insert key value) :
    entry = (key, value) ∨ entry ∈ entries := by
  induction entries with
  | nil => exact Or.inl (List.mem_singleton.1 mem)
  | cons first rest ih =>
      obtain ⟨name, old⟩ := first
      rw [insert] at mem
      split at mem
      · rcases List.mem_cons.1 mem with written | kept
        · exact Or.inl written
        · exact Or.inr (List.mem_cons_of_mem _ kept)
      · rcases List.mem_cons.1 mem with rfl | later
        · exact Or.inr List.mem_cons_self
        · exact (ih later).imp id (List.mem_cons_of_mem _)

theorem nodup_keys_insert {entries : Entries α} (distinct : (keys entries).Nodup)
    (key : String) (value : α) : (keys (entries.insert key value)).Nodup := by
  rw [keys_insert]
  split
  · exact distinct
  · rename_i absent
    rw [List.nodup_append]
    refine ⟨distinct, by simp, ?_⟩
    intro first firstMem second secondMem same
    have : second = key := by simpa using secondMem
    exact absent (this ▸ same ▸ firstMem)

theorem keys_erase (entries : Entries α) (key : String) :
    keys (entries.erase key) = (keys entries).filter (· != key) := by
  simp [keys, erase, List.filter_map, Function.comp_def]

theorem get?_erase (entries : Entries α) (key name : String) :
    get? (entries.erase key) name =
      if key = name then none else get? entries name := by
  induction entries with
  | nil => simp [erase]
  | cons entry rest ih =>
      obtain ⟨first, value⟩ := entry
      simp only [erase] at ih
      by_cases same : first = key
      · subst same
        by_cases wanted : first = name <;> simp_all [erase]
      · by_cases wanted : first = name
        · subst wanted
          simp [erase, same, Ne.symm same]
        · simp [erase, same, wanted, ih]

theorem length_erase_lt {entries : Entries α} {key : String} {value : α}
    (present : get? entries key = some value) :
    (entries.erase key).length < entries.length := by
  rw [erase, List.length_filter_lt_length_iff_exists]
  exact ⟨(key, value), mem_of_get?_eq_some present, by simp⟩

theorem get?_append (left right : Entries α) (name : String) :
    get? (left ++ right) name = (get? left name).or (get? right name) := by
  induction left with
  | nil => simp
  | cons entry rest ih =>
      obtain ⟨first, value⟩ := entry
      by_cases wanted : first = name <;> simp [wanted, ih]

theorem keys_insertLast (entries : Entries α) (key : String) (value : α) :
    keys (entries.insertLast key value) =
      (keys entries).filter (· != key) ++ [key] := by
  simp [insertLast, keys_erase]

theorem get?_insertLast (entries : Entries α) (key name : String) (value : α) :
    get? (entries.insertLast key value) name =
      if key = name then some value else get? entries name := by
  by_cases wanted : key = name <;> simp [insertLast, get?_append, get?_erase, wanted]

theorem mem_of_mem_insertLast {entries : Entries α} {key : String} {value : α}
    {entry : String × α} (mem : entry ∈ entries.insertLast key value) :
    entry = (key, value) ∨ entry ∈ entries := by
  rcases List.mem_append.1 mem with kept | written
  · exact Or.inr (List.mem_filter.1 kept).1
  · exact Or.inl (List.mem_singleton.1 written)

theorem nodup_keys_insertLast {entries : Entries α}
    (distinct : (keys entries).Nodup) (key : String) (value : α) :
    (keys (entries.insertLast key value)).Nodup := by
  rw [keys_insertLast, List.nodup_append]
  exact ⟨distinct.filter _, by simp, by simp⟩

theorem get?_moveToEnd (entries : Entries α) (key name : String) :
    get? (entries.moveToEnd key) name = get? entries name := by
  unfold moveToEnd
  split
  · rename_i value present
    rw [get?_insertLast]
    split
    · rename_i same
      rw [← same, present]
    · rfl
  · rfl

theorem mem_of_mem_moveToEnd {entries : Entries α} {key : String} {entry : String × α}
    (mem : entry ∈ entries.moveToEnd key) : entry ∈ entries := by
  unfold moveToEnd at mem
  split at mem
  · rename_i value present
    rcases mem_of_mem_insertLast mem with rfl | kept
    · exact mem_of_get?_eq_some present
    · exact kept
  · exact mem

theorem moveToEnd_cons {rest : Entries α} {key : String} (absent : key ∉ keys rest)
    (value : α) : moveToEnd ((key, value) :: rest) key = rest ++ [(key, value)] := by
  have kept : rest.erase key = rest := by
    refine List.filter_eq_self.2 fun entry mem => ?_
    rw [bne_iff_ne]
    rintro rfl
    exact absent (List.mem_map_of_mem mem)
  have erased : erase ((key, value) :: rest) key = rest := by
    rw [← kept]
    simp [erase]
  rw [moveToEnd, get?_cons, if_pos rfl]
  simp only [insertLast, erased]

theorem nodup_keys_moveToEnd {entries : Entries α}
    (distinct : (keys entries).Nodup) (key : String) :
    (keys (entries.moveToEnd key)).Nodup := by
  unfold moveToEnd
  split
  · exact nodup_keys_insertLast distinct _ _
  · exact distinct

/-- In either mode a written key has the value written, and no other key
changes. -/
theorem get?_write (last : Bool) (entries : Entries α) (key name : String)
    (value : α) :
    get? (entries.write last key value) name =
      if key = name then some value else get? entries name := by
  cases last <;> simp [write, get?_insert, get?_insertLast]

theorem mem_of_mem_write {last : Bool} {entries : Entries α} {key : String} {value : α}
    {entry : String × α} (mem : entry ∈ entries.write last key value) :
    entry = (key, value) ∨ entry ∈ entries := by
  cases last with
  | false => exact mem_of_mem_insert mem
  | true => exact mem_of_mem_insertLast mem

theorem nodup_keys_write {entries : Entries α} (distinct : (keys entries).Nodup)
    (last : Bool) (key : String) (value : α) :
    (keys (entries.write last key value)).Nodup := by
  cases last
  · exact nodup_keys_insert distinct key value
  · exact nodup_keys_insertLast distinct key value

/-- Entries written one after the other have the last value of every key. -/
theorem get?_ofList (entries : List (String × α)) (key : String) :
    get? (ofList entries) key = get? entries.reverse key := by
  have step : ∀ (rest : List (String × α)) (written : Entries α),
      get? (rest.foldl (fun written entry => Entries.insert written entry.1 entry.2)
        written) key = (get? rest.reverse key).or (get? written key) := by
    intro rest
    induction rest with
    | nil => simp
    | cons entry rest ih =>
        intro written
        obtain ⟨name, value⟩ := entry
        rw [List.foldl_cons, ih, List.reverse_cons, get?_append, get?_insert]
        by_cases wanted : name = key <;> simp [wanted]
  rw [ofList, step, get?_nil, Option.or_none]

theorem nodup_keys_ofList (entries : List (String × α)) :
    (keys (ofList entries)).Nodup := by
  have step : ∀ (rest : List (String × α)) (written : Entries α),
      (keys written).Nodup →
        (keys (rest.foldl (fun written entry =>
          Entries.insert written entry.1 entry.2) written)).Nodup := by
    intro rest
    induction rest with
    | nil => intro written distinct; simpa using distinct
    | cons entry rest ih =>
        intro written distinct
        exact ih _ (nodup_keys_insert distinct entry.1 entry.2)
  exact step entries [] (by simp)

end Entries

end ConditionalStyles
