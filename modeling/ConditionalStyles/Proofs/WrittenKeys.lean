import Mathlib.Data.List.Dedup
import Mathlib.Data.List.Induction
import ConditionalStyles.Entries

/-!
# The order of written keys

A write lists its key where it stands, or at the end, whatever the values are.  The keys
of entries that are written one after the other are therefore a fold over the keys
alone: each one stands where it was written first, or last.  Entries without a repeated
key are determined by that order and by the value of every key.
-/

namespace ConditionalStyles

namespace Entries

variable {α : Type}

/-- List a key at the end, or if `last` is not set where it is listed already. -/
def place (last : Bool) (listed : List String) (key : String) : List String :=
  if last then listed.filter (· != key) ++ [key]
  else if key ∈ listed then listed
  else listed ++ [key]

theorem keys_write (last : Bool) (entries : Entries α) (key : String) (value : α) :
    keys (entries.write last key value) = place last (keys entries) key := by
  cases last with
  | false => exact keys_insert entries key value
  | true => exact keys_insertLast entries key value

theorem keys_moveToEnd {entries : Entries α} {key : String} (present : key ∈ keys entries) :
    keys (entries.moveToEnd key) = place true (keys entries) key := by
  unfold moveToEnd
  split
  · exact keys_insertLast entries key _
  · rename_i absent
    exact absurd present (get?_eq_none_iff.1 absent)

/-! ## Listing keys one after the other -/

section

variable {last : Bool} {listed : List String} {key : String}

theorem mem_place (last : Bool) (listed : List String) (key other : String) :
    other ∈ place last listed key ↔ other ∈ listed ∨ other = key := by
  unfold place
  split
  · by_cases same : other = key <;> simp [same]
  · split
    · rename_i present
      constructor
      · exact Or.inl
      · rintro (mem | rfl)
        · exact mem
        · exact present
    · simp

theorem mem_foldl_place (last : Bool) (keys listed : List String) (key : String) :
    key ∈ keys.foldl (place last) listed ↔ key ∈ listed ∨ key ∈ keys := by
  induction keys generalizing listed with
  | nil => simp
  | cons first rest ih => rw [List.foldl_cons, ih, mem_place, List.mem_cons, or_assoc]

theorem place_append {front : List String} (absent : key ∉ front) :
    place last (front ++ listed) key = front ++ place last listed key := by
  have kept : front.filter (· != key) = front := by
    refine List.filter_eq_self.2 fun other mem => bne_iff_ne.2 ?_
    rintro rfl
    exact absent mem
  unfold place
  simp only [List.filter_append, kept, List.mem_append, absent, false_or]
  split
  · rw [List.append_assoc]
  · split
    · rfl
    · rw [List.append_assoc]

theorem foldl_place_append {front keys : List String} (absent : ∀ key ∈ keys, key ∉ front) :
    keys.foldl (place last) (front ++ listed) = front ++ keys.foldl (place last) listed := by
  induction keys generalizing listed with
  | nil => rfl
  | cons first rest ih =>
      rw [List.foldl_cons, List.foldl_cons, place_append (absent first List.mem_cons_self)]
      exact ih fun key mem => absent key (List.mem_cons_of_mem _ mem)

theorem foldl_place_of_nodup {keys : List String} (distinct : (listed ++ keys).Nodup) :
    keys.foldl (place last) listed = listed ++ keys := by
  induction keys generalizing listed with
  | nil => rw [List.foldl_nil, List.append_nil]
  | cons first rest ih =>
      have absent : first ∉ listed := fun mem =>
        (List.nodup_append.1 distinct).2.2 first mem first List.mem_cons_self rfl
      have placed : place last listed first = listed ++ [first] :=
        calc place last listed first = place last (listed ++ []) first := by
              rw [List.append_nil]
          _ = listed ++ place last [] first := place_append absent
          _ = listed ++ [first] := by cases last <;> rfl
      rw [List.append_cons] at distinct
      rw [List.foldl_cons, placed, ih distinct, ← List.append_cons]

theorem filter_foldl_place {keys listed' : List String}
    (same : listed.filter (· != key) = listed'.filter (· != key)) :
    ((keys.filter (· != key)).foldl (place true) listed).filter (· != key) =
      (keys.foldl (place true) listed').filter (· != key) := by
  induction keys generalizing listed listed' with
  | nil => exact same
  | cons first rest ih =>
      by_cases moved : first = key
      · subst moved
        rw [List.filter_cons_of_neg (by simp), List.foldl_cons]
        apply ih
        simp [place, same]
      · rw [List.filter_cons_of_pos (by simpa using moved), List.foldl_cons, List.foldl_cons]
        apply ih
        simp only [place, if_true, List.filter_append]
        rw [List.filter_comm, same, List.filter_comm]

/-- Listing keys is the same as listing them by themselves first. -/
theorem foldl_place_foldl_place (last : Bool) (keys listed : List String) :
    (keys.foldl (place last) []).foldl (place last) listed = keys.foldl (place last) listed := by
  induction keys using List.reverseRecOn with
  | nil => rfl
  | append_singleton rest key ih =>
      rw [List.foldl_concat, List.foldl_concat, ← ih]
      generalize same : rest.foldl (place last) [] = ordered
      cases last with
      | false =>
          by_cases present : key ∈ ordered
          · have listedKey : key ∈ ordered.foldl (place false) listed :=
              (mem_foldl_place false ordered listed key).2 (Or.inr present)
            simp [place, present, listedKey]
          · simp only [place, present, Bool.false_eq_true, if_false, List.foldl_concat]
      | true =>
          simp only [place, if_true, List.foldl_concat]
          rw [filter_foldl_place rfl]

/-! ## Where a key stands -/

theorem dedup_concat (keys : List String) (key : String) :
    (keys ++ [key]).dedup = keys.dedup.filter (· != key) ++ [key] := by
  induction keys with
  | nil => simp
  | cons first rest ih =>
      rw [List.cons_append, List.dedup_cons, List.dedup_cons, ih]
      by_cases moved : first = key
      · subst moved
        by_cases repeated : first ∈ rest <;> simp [repeated]
      · by_cases repeated : first ∈ rest <;> simp [repeated, moved]

theorem eraseDups_concat (keys : List String) (key : String) :
    (keys ++ [key]).eraseDups =
      if key ∈ keys then keys.eraseDups else keys.eraseDups ++ [key] := by
  rw [List.eraseDups_append]
  by_cases repeated : key ∈ keys <;>
    simp [List.removeAll, repeated, List.eraseDups_cons]

/-- Keys that are always listed at the end stand in the order of their last occurrences,
and other keys in the order of their first ones. -/
theorem foldl_place_nil (last : Bool) (keys : List String) :
    keys.foldl (place last) [] = if last then keys.dedup else keys.eraseDups := by
  induction keys using List.reverseRecOn with
  | nil => cases last <;> simp
  | append_singleton rest key ih =>
      rw [List.foldl_concat, ih]
      cases last with
      | false => simp [place, eraseDups_concat]
      | true => simp [place, dedup_concat]

end

/-! ## Order and values -/

theorem eq_of_get?_eq {entries entries' : Entries α} (distinct : (keys entries).Nodup)
    (sameKeys : keys entries = keys entries')
    (same : ∀ key, get? entries key = get? entries' key) : entries = entries' := by
  induction entries generalizing entries' with
  | nil => exact (List.map_eq_nil_iff.1 sameKeys.symm).symm
  | cons entry rest ih =>
      obtain ⟨key, value⟩ := entry
      cases entries' with
      | nil => simp at sameKeys
      | cons entry' rest' =>
          obtain ⟨name, value'⟩ := entry'
          obtain ⟨rfl, restKeys⟩ := List.cons.inj sameKeys
          obtain ⟨absent, restDistinct⟩ := List.nodup_cons.1 distinct
          have absent' : key ∉ keys rest' := by rwa [keys, ← restKeys]
          have sameValue : value = value' := by simpa using same key
          have sameRest : rest = rest' := by
            refine ih restDistinct restKeys fun other => ?_
            by_cases wanted : key = other
            · subst wanted
              rw [get?_eq_none_iff.2 absent, get?_eq_none_iff.2 absent']
            · simpa [wanted] using same other
          rw [sameValue, sameRest]

end Entries

end ConditionalStyles
