import ConditionalStyles.Proofs.WrittenKeys
import ConditionalStyles.Style.Flatten

/-!
# Merged fragments

Merging writes all entries of all fragments one after the other, so that it depends on
nothing but the sequence of the entries.  A key has the value of the last fragment that
lists it, and stands where it occurs first, or last if the order of the source decides.
Some of the fragments may therefore be merged beforehand.
-/

namespace ConditionalStyles

namespace Style

variable (sort : Bool)

/-! ## The values and the order of the keys -/

theorem merge_eq_mergeFragment (fragments : List Style) :
    merge sort fragments = mergeFragment sort [] fragments.flatten := by
  rw [merge, mergeFragment, List.foldl_flatten]
  rfl

theorem keys_mergeFragment (merged fragment : Style) :
    Entries.keys (mergeFragment sort merged fragment) =
      (Entries.keys fragment).foldl (Entries.place sort) (Entries.keys merged) := by
  induction fragment generalizing merged with
  | nil => rfl
  | cons entry rest ih =>
      obtain ⟨key, value⟩ := entry
      rw [Entries.keys_cons, List.foldl_cons, ← Entries.keys_write sort merged key value]
      exact ih _

theorem get?_mergeFragment (merged fragment : Style) (key : String) :
    Entries.get? (mergeFragment sort merged fragment) key =
      (Entries.get? fragment.reverse key).or (Entries.get? merged key) := by
  induction fragment generalizing merged with
  | nil => rfl
  | cons entry rest ih =>
      obtain ⟨name, value⟩ := entry
      have step : mergeFragment sort merged ((name, value) :: rest) =
          mergeFragment sort (Entries.write sort merged name value) rest := rfl
      rw [step, ih, Entries.get?_write, List.reverse_cons, Entries.get?_append]
      by_cases wanted : name = key <;> simp [wanted]

theorem nodup_keys_mergeFragment {merged : Style} (distinct : (Entries.keys merged).Nodup)
    (fragment : Style) : (Entries.keys (mergeFragment sort merged fragment)).Nodup := by
  induction fragment generalizing merged with
  | nil => exact distinct
  | cons entry rest ih => exact ih (Entries.nodup_keys_write distinct sort entry.1 entry.2)

theorem nodup_keys_merge (fragments : List Style) :
    (Entries.keys (merge sort fragments)).Nodup := by
  have distinct : (Entries.keys ([] : Style)).Nodup := List.nodup_nil
  rw [merge_eq_mergeFragment]
  exact nodup_keys_mergeFragment sort distinct _

theorem keys_merge (fragments : List Style) :
    Entries.keys (merge sort fragments) =
      (fragments.flatMap Entries.keys).foldl (Entries.place sort) [] := by
  have listed : Entries.keys fragments.flatten = fragments.flatMap Entries.keys :=
    List.map_flatten
  rw [merge_eq_mergeFragment, keys_mergeFragment, Entries.keys_nil, listed]

theorem get?_merge (fragments : List Style) (key : String) :
    Entries.get? (merge sort fragments) key =
      Entries.get? fragments.flatten.reverse key := by
  rw [merge_eq_mergeFragment, get?_mergeFragment, Entries.get?_nil, Option.or_none]

theorem get?_reverse {style : Style} (distinct : (Entries.keys style).Nodup) (key : String) :
    Entries.get? style.reverse key = Entries.get? style key := by
  induction style with
  | nil => rfl
  | cons entry rest ih =>
      obtain ⟨name, value⟩ := entry
      obtain ⟨absent, restDistinct⟩ := List.nodup_cons.1 distinct
      rw [List.reverse_cons, Entries.get?_append, ih restDistinct, Entries.get?_cons]
      by_cases wanted : name = key
      · subst wanted
        simp [Entries.get?_eq_none_iff.2 absent]
      · simp [wanted]

theorem get?_flatten_reverse {fragments : List Style}
    (distinct : ∀ fragment ∈ fragments, (Entries.keys fragment).Nodup) (key : String) :
    Entries.get? fragments.flatten.reverse key =
      fragments.reverse.findSome? fun fragment => Entries.get? fragment key := by
  induction fragments with
  | nil => rfl
  | cons first rest ih =>
      have later := ih fun fragment mem => distinct fragment (List.mem_cons_of_mem _ mem)
      rw [List.flatten_cons, List.reverse_append, Entries.get?_append, later,
        get?_reverse (distinct first List.mem_cons_self), List.reverse_cons,
        List.findSome?_append, List.findSome?_singleton]

/-! ## Groups of fragments -/

/-- Taking in a merged group is taking in its fragments. -/
theorem mergeFragment_merge (merged : Style) (distinct : (Entries.keys merged).Nodup)
    (group : List Style) :
    mergeFragment sort merged (merge sort group) = mergeFragment sort merged group.flatten := by
  apply Entries.eq_of_get?_eq (nodup_keys_mergeFragment sort distinct _)
  · rw [keys_mergeFragment, keys_mergeFragment, merge_eq_mergeFragment, keys_mergeFragment]
    exact Entries.foldl_place_foldl_place sort _ _
  · intro key
    rw [get?_mergeFragment, get?_mergeFragment, get?_reverse (nodup_keys_merge sort group),
      get?_merge]

theorem merge_append (first second : List Style) :
    merge sort (first ++ second) =
      mergeFragment sort (merge sort first) second.flatten := by
  rw [merge, List.foldl_append, ← merge, mergeFragment, List.foldl_flatten]
  rfl

theorem merge_group (before group after : List Style) :
    merge sort (before ++ [merge sort group] ++ after) =
      merge sort (before ++ group ++ after) := by
  have grouped : merge sort (before ++ [merge sort group]) = merge sort (before ++ group) := by
    rw [merge_append, merge_append, List.flatten_singleton,
      mergeFragment_merge sort _ (nodup_keys_merge sort before)]
  rw [merge_append sort (before ++ [merge sort group]), grouped, ← merge_append]

/-- Merging is insensitive to grouping.  Every key has the value of the last fragment
that lists it, and the keys stand in the order of their first occurrences, or of their
last ones if the order of the source decides.  Hence a group of fragments may be merged
beforehand, and flattening gives the same result. -/
theorem merge_is_insensitive_to_grouping :
    (∀ fragments : List Style,
      (∀ fragment ∈ fragments, (Entries.keys fragment).Nodup) →
      (∀ key, Entries.get? (merge sort fragments) key =
        fragments.reverse.findSome? fun fragment => Entries.get? fragment key) ∧
      Entries.keys (merge sort fragments) =
        if sort then (fragments.flatMap Entries.keys).dedup
        else (fragments.flatMap Entries.keys).eraseDups) ∧
    ∀ before group after : List Style,
      merge sort (before ++ [merge sort group] ++ after) =
        merge sort (before ++ group ++ after) ∧
      ∀ flattener : Flattener, flattener.settings.sort = sort →
        flattener.flattenAll (before ++ [merge sort group] ++ after) =
          flattener.flattenAll (before ++ group ++ after) := by
  constructor
  · intro fragments distinct
    constructor
    · intro key
      rw [get?_merge, get?_flatten_reverse distinct]
    · rw [keys_merge, Entries.foldl_place_nil]
  · intro before group after
    refine ⟨merge_group sort before group after, ?_⟩
    rintro flattener rfl
    rw [Flattener.flattenAll, Flattener.flattenAll, merge_group]

def sortedHover : Flattener where
  hooks := Compiled.ofConfiguration (Identifier.named id)
    (Configuration.ofList [("hover", .leaf ":hover")])
  settings := { sort := true }
  renderer := Renderer.plain

def button : Style :=
  [("color", .text "black"), ("hover", .object [("color", .text "blue")]),
    ("width", .text "8em")]

def narrow : Style :=
  [("width", .text "4em"), ("margin", .number (.ofInt 0))]

def warning : Style :=
  [("hover", .object [("outline", .text "thin")]), ("color", .text "red")]

/-- The two changes of the button may be merged before it is changed. -/
theorem merge_button_by_groups :
    (∀ fragment ∈ [button, narrow, warning], (Entries.keys fragment).Nodup) ∧
      Entries.get? (merge true [button, narrow, warning]) "width" = some (.text "4em") ∧
      Entries.keys (merge true [button, narrow, warning]) =
        ["width", "margin", "hover", "color"] ∧
      sortedHover.settings.sort = true ∧
      sortedHover.flattenAll ([button] ++ [merge true [narrow, warning]] ++ []) =
        sortedHover.flattenAll ([button] ++ [narrow, warning] ++ []) := by
  have distinct : ∀ fragment ∈ [button, narrow, warning], (Entries.keys fragment).Nodup := by
    decide
  obtain ⟨values, order⟩ :=
    (merge_is_insensitive_to_grouping true).1 [button, narrow, warning] distinct
  refine ⟨distinct, values "width", order.trans (by decide), rfl, ?_⟩
  exact ((merge_is_insensitive_to_grouping true).2 [button] [narrow, warning] []).2
    sortedHover rfl

end Style

end ConditionalStyles
