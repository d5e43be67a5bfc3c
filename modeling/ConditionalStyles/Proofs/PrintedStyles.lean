import ConditionalStyles.CommandLine.Run
import ConditionalStyles.Proofs.DeclaredReferences
import ConditionalStyles.Proofs.IndentedJson
import ConditionalStyles.Proofs.Levels
import ConditionalStyles.Proofs.MergedFragments
import ConditionalStyles.Proofs.StagedFlattening
import ConditionalStyles.Proofs.StyleJson

/-!
# Printed styles are printed again

A style that was read from files and flattened can be printed, read and flattened
again.  Reading gives back the style, since it still fits in a document, and flattening
leaves it as it is, since it has no branches and both renderers keep their output.  Only
a number whose literal is not rounded correctly when it is read comes out differently.
-/

namespace ConditionalStyles

/-! ## Styles that a document can hold -/

/-- A value that a document can hold in the object at the top. -/
structure StyleValue.Storable (value : StyleValue) : Prop where
  wellFormed : value.WellFormed
  allFinite : value.AllFinite
  nested : value.toJson.nesting < Json.nestingLimit

theorem StyleValue.storable_text (content : String) : (StyleValue.text content).Storable :=
  ⟨trivial, trivial, show 0 < Json.nestingLimit by decide⟩

structure Style.Storable (style : Style) : Prop where
  distinct : (Entries.keys style).Nodup
  each : ∀ entry ∈ style, entry.2.Storable

namespace StyleValue

theorem allFiniteMembers_iff {style : Style} :
    AllFiniteMembers style ↔ ∀ entry ∈ style, entry.2.AllFinite := by
  induction style with
  | nil => simp [AllFiniteMembers]
  | cons entry rest ih =>
      obtain ⟨key, value⟩ := entry
      rw [AllFiniteMembers, ih, List.forall_mem_cons]

theorem nestingOfMembers_toJsonMembers_lt_iff {style : Style} {bound : Nat} :
    Json.nestingOfMembers (toJsonMembers style) < bound + 1 ↔
      ∀ entry ∈ style, entry.2.toJson.nesting < bound + 1 := by
  induction style with
  | nil => simp [toJsonMembers, Json.nestingOfMembers]
  | cons entry rest ih =>
      obtain ⟨key, value⟩ := entry
      rw [toJsonMembers, Json.nestingOfMembers, Nat.max_lt, ih, List.forall_mem_cons]

end StyleValue

namespace Style

theorem Storable.wellFormed {style : Style} (storable : style.Storable) : style.WellFormed :=
  ⟨storable.distinct, StyleValue.wellFormedMembers_iff.2 fun entry mem =>
    (storable.each entry mem).wellFormed⟩

theorem Storable.nesting_toJson_le {style : Style} (storable : style.Storable) :
    style.toJson.nesting ≤ Json.nestingLimit := by
  have inside : Json.nestingOfMembers (StyleValue.toJsonMembers style) < Json.nestingLimit :=
    StyleValue.nestingOfMembers_toJsonMembers_lt_iff.2 fun entry mem =>
      (storable.each entry mem).nested
  rw [toJson, Json.nesting]
  exact inside

theorem Storable.ofJson?_toJson {style : Style} (storable : style.Storable) :
    ofJson? style.toJson = some style :=
  Style.ofJson?_toJson <| StyleValue.allFiniteMembers_iff.2 fun entry mem =>
    (storable.each entry mem).allFinite

/-- A storable style is read back from its printed text, if the literals in it are rounded
correctly. -/
theorem Storable.parse?_indented {style : Style} (storable : style.Storable)
    (rounded : ∀ literal ∈ Json.literalsIn (style.toJson.indented ++ "\n").toList,
      literal.IsRounded) :
    (Json.parse? (style.toJson.indented ++ "\n")).bind ofJson? = some style := by
  have wellFormed : style.toJson.WellFormed :=
    StyleValue.wellFormed_toJson (.object style) storable.wellFormed
  rw [Json.parse?_indented wellFormed storable.nesting_toJson_le rounded, Option.bind_some,
    storable.ofJson?_toJson]

theorem storable_of_parse? {text : String} {value : Json} {style : Style}
    (read : Json.parse? text = some value) (described : ofJson? value = some style) :
    style.Storable := by
  obtain ⟨wellFormed, nested⟩ := Json.within_of_parse? read
  cases value with
  | object members =>
      cases described
      rw [Nat.zero_add, Json.nesting] at nested
      have values := StyleValue.wellFormedMembers_ofJsonMembers members wellFormed.2
      have finite := StyleValue.allFiniteMembers_ofJsonMembers members
      have inside : Json.nestingOfMembers
          (StyleValue.toJsonMembers (StyleValue.ofJsonMembers members)) < Json.nestingLimit := by
        rw [StyleValue.nestingOfMembers_toJsonMembers_ofJsonMembers]
        exact nested
      refine ⟨?_, fun entry mem => ⟨StyleValue.wellFormedMembers_iff.1 values entry mem,
        StyleValue.allFiniteMembers_iff.1 finite entry mem,
        StyleValue.nestingOfMembers_toJsonMembers_lt_iff.1 inside entry mem⟩⟩
      rw [StyleValue.keys_ofJsonMembers]
      exact wellFormed.1
  | _ => cases described

/-! ## Merging and flattening -/

theorem storable_merge (sort : Bool) {fragments : List Style}
    (storable : ∀ fragment ∈ fragments, fragment.Storable) :
    (merge sort fragments).Storable where
  distinct := nodup_keys_merge sort fragments
  each := by
    rintro ⟨key, value⟩ mem
    have written := Entries.get?_eq_some_of_mem (nodup_keys_merge sort fragments) mem
    rw [get?_merge] at written
    have listed := List.mem_reverse.1 (Entries.mem_of_get?_eq_some written)
    obtain ⟨fragment, fragmentMem, entryMem⟩ := List.mem_flatten.1 listed
    exact (storable fragment fragmentMem).each _ entryMem

/-- A style without a repeated key is merged with nothing into itself. -/
theorem merge_singleton (sort : Bool) {style : Style} (distinct : (Entries.keys style).Nodup) :
    merge sort [style] = style := by
  refine Entries.eq_of_get?_eq (nodup_keys_merge sort [style]) ?_ fun key => ?_
  · rw [keys_merge, List.flatMap_singleton, Entries.foldl_place_of_nodup distinct,
      List.nil_append]
  · rw [get?_merge, List.flatten_singleton, get?_reverse distinct]

end Style

namespace Flattener

variable (flattener : Flattener)

theorem keepsOutput_pixels : Renderer.pixels.KeepsOutput :=
  fun _ _ _ _ _ => rfl

/-- Flattening leaves texts, and values that it leaves alone. -/
theorem storable_flatten {style : Style} (storable : style.Storable) :
    (flattener.flatten style).Storable where
  distinct := flattener.nodup_keys_flatten storable.distinct
  each := by
    rintro ⟨key, value⟩ mem
    have flattened := Entries.get?_eq_some_of_mem
      (flattener.nodup_keys_flatten storable.distinct) mem
    rcases rendered_or_inert storable.wellFormed flattened with
      ⟨text, rfl, -⟩ | ⟨-, inert, -⟩
    · exact StyleValue.storable_text text
    · exact storable.each _ (Entries.mem_of_get?_eq_some inert)

theorem storable_flattenAll {fragments : List Style}
    (storable : ∀ fragment ∈ fragments, fragment.Storable) :
    (flattener.flattenAll fragments).Storable :=
  flattener.storable_flatten (Style.storable_merge flattener.settings.sort storable)

/-- A flattened style is merged and flattened to itself. -/
theorem flattenAll_flattenAll (keeps : flattener.renderer.KeepsOutput)
    (fragments : List Style) :
    flattener.flattenAll [flattener.flattenAll fragments] = flattener.flattenAll fragments := by
  have distinct := Style.nodup_keys_merge flattener.settings.sort fragments
  have alone := Style.merge_singleton flattener.settings.sort
    (flattener.nodup_keys_flatten distinct)
  have again : flattener.flatten (flattener.flatten
        (Style.merge flattener.settings.sort fragments)) =
      flattener.flatten (Style.merge flattener.settings.sort fragments) :=
    congrArg (Entries.mapValues Cell.value) (branchCells_flatten keeps distinct)
  rw [flattenAll, flattenAll, alone, again]

end Flattener

namespace CommandLine

/-! ## Reading a printed style -/

section

variable {files files' : Files}

theorem readStyle_eq_ok_iff {path : String} {style : Style} :
    readStyle files path = .ok style ↔
      ∃ text value, files path = some text ∧ Json.parse? text = some value ∧
        Style.ofJson? value = some style := by
  rw [readStyle, readJson]
  cases stored : files path with
  | none => simp [bind, Except.bind]
  | some text =>
      cases parsed : Json.parse? text with
      | none => simp [parsed, bind, Except.bind]
      | some value => cases described : Style.ofJson? value <;>
          simp [parsed, described, bind, Except.bind]

theorem storable_of_mem_mapM {styles : List String} {fragments : List Style}
    (read : styles.mapM (readStyle files) = .ok fragments) :
    ∀ fragment ∈ fragments, fragment.Storable := by
  induction styles generalizing fragments with
  | nil =>
      cases read
      exact nofun
  | cons path rest ih =>
      rw [List.mapM_cons] at read
      cases first : readStyle files path with
      | error failure => simp [first, bind, Except.bind] at read
      | ok style =>
          cases later : rest.mapM (readStyle files) with
          | error failure => simp [first, later, bind, Except.bind] at read
          | ok others =>
              simp only [first, later, bind, Except.bind, pure, Except.pure,
                Except.ok.injEq] at read
              rw [← read, List.forall_mem_cons]
              obtain ⟨text, value, -, parsed, described⟩ := readStyle_eq_ok_iff.1 first
              exact ⟨Style.storable_of_parse? parsed described, ih later⟩

theorem readDocument_congr {configuration : String}
    (same : files' configuration = files configuration) :
    readDocument files' configuration = readDocument files configuration := by
  rw [readDocument, readDocument, readJson, readJson, same]

variable {configuration output text : String} {styles : List String} {flags : Flags}

theorem run_flatten {document : Document} {fragments : List Style}
    (configured : (readDocument files configuration).value = .ok document)
    (read : styles.mapM (readStyle files) = .ok fragments) :
    run files (.flatten configuration styles flags) =
      { warnings := (readDocument files configuration).warnings
        value := .ok (line
          ((hooksOf flags document).flattenAll fragments).toJson.indented) } := by
  have warned : (run files (.flatten configuration styles flags)).warnings =
      (readDocument files configuration).warnings := by
    simp [run, configured, read]
  have printed : (run files (.flatten configuration styles flags)).value =
      .ok (line ((hooksOf flags document).flattenAll fragments).toJson.indented) := by
    simp [run, configured, read]
  rw [← warned, ← printed]

theorem exists_of_run_flatten
    (printed : (run files (.flatten configuration styles flags)).value = .ok text) :
    ∃ document fragments, (readDocument files configuration).value = .ok document ∧
      styles.mapM (readStyle files) = .ok fragments ∧
      text = line ((hooksOf flags document).flattenAll fragments).toJson.indented := by
  cases configured : (readDocument files configuration).value with
  | error failure => simp [run, configured] at printed
  | ok document =>
      cases read : styles.mapM (readStyle files) with
      | error failure => simp [run, configured, read] at printed
      | ok fragments =>
          rw [run_flatten configured read] at printed
          exact ⟨document, fragments, rfl, rfl, (Except.ok.inj printed).symm⟩

theorem keepsOutput_hooksOf (flags : Flags) (document : Document) :
    (hooksOf flags document).flattener.renderer.KeepsOutput := by
  show (if flags.pixels then Renderer.pixels else Renderer.plain).KeepsOutput
  split
  · exact Flattener.keepsOutput_pixels
  · exact Flattener.keepsOutput_plain

/-- What flattening prints is printed again.  If the printed text is stored in a file, then
flattening that file with the same configuration and flags prints the same text with the same
warnings, provided that every number literal in the text is read as the nearest double. -/
theorem printed_style_is_printed_again
    (printed : (run files (.flatten configuration styles flags)).value = .ok text)
    (rounded : ∀ literal ∈ Json.literalsIn text.toList, literal.IsRounded)
    (sameConfiguration : files' configuration = files configuration)
    (stored : files' output = some text) :
    run files' (.flatten configuration [output] flags) =
      run files (.flatten configuration styles flags) := by
  obtain ⟨document, fragments, configured, read, rfl⟩ := exists_of_run_flatten printed
  have storable :=
    (hooksOf flags document).flattener.storable_flattenAll (storable_of_mem_mapM read)
  obtain ⟨value, parsed, described⟩ :=
    Option.bind_eq_some_iff.1 (storable.parse?_indented rounded)
  have reread : [output].mapM (readStyle files') =
      .ok [(hooksOf flags document).flattenAll fragments] := by
    have style := readStyle_eq_ok_iff.2 ⟨_, value, stored, parsed, described⟩
    rw [List.mapM_cons, style]
    rfl
  have reconfigured : (readDocument files' configuration).value = .ok document := by
    rw [readDocument_congr sameConfiguration, configured]
  have again : (hooksOf flags document).flattenAll [(hooksOf flags document).flattenAll fragments] =
      (hooksOf flags document).flattenAll fragments :=
    (hooksOf flags document).flattener.flattenAll_flattenAll
      (keepsOutput_hooksOf flags document) fragments
  rw [run_flatten configured read, run_flatten reconfigured reread,
    readDocument_congr sameConfiguration, again]

end

theorem eq_ok_of_toOption {files : Files} {command : Command} {text : String}
    (printed : (run files command).value.toOption = some text) :
    (run files command).value = .ok text := by
  cases ran : (run files command).value with
  | error failure => simp [ran, Except.toOption] at printed
  | ok other => simpa [ran, Except.toOption] using printed

def printedPage : String :=
  "\x7b\n" ++
    "  \"width\": \"var(--dark-dq6y1m-1, var(--hover-zh6im6-1, 9px) var(--hover-zh6im6-0, " ++
    "12.5px)) var(--dark-dq6y1m-0, 12.5px)\",\n" ++
    "  \"margin\": [\n" ++
    "    1.0,\n" ++
    "    -0.5,\n" ++
    "    null\n" ++
    "  ]\n" ++
    "\x7d\n"

/-- Two hooks and two styles, in one of which one hook stands inside the other, and the
printed style. -/
def pageFiles : Files
  | "hooks.json" =>
      some ("\x7b\"hooks\":\x7b\"hover\":\":hover\",\"dark\":\".dark &\"\x7d," ++
        "\"options\":\x7b\"sort\":true\x7d\x7d")
  | "base.json" => some "\x7b\"width\":12.5,\"dark\":\x7b\"hover\":\x7b\"width\":9\x7d\x7d\x7d"
  | "wide.json" => some "\x7b\"margin\":[1,-0.5,null]\x7d"
  | "printed.json" => some printedPage
  | _ => none

/-- The printed style is printed again; the literals in it are rounded correctly. -/
theorem printed_page_is_printed_again :
    (run pageFiles (.flatten "hooks.json" ["base.json", "wide.json"]
        { debug := true, pixels := true })).value = .ok printedPage ∧
      (∀ literal ∈ Json.literalsIn printedPage.toList, literal.IsRounded) ∧
      pageFiles "hooks.json" = pageFiles "hooks.json" ∧
      pageFiles "printed.json" = some printedPage ∧
      run pageFiles (.flatten "hooks.json" ["printed.json"] { debug := true, pixels := true }) =
        run pageFiles (.flatten "hooks.json" ["base.json", "wide.json"]
          { debug := true, pixels := true }) := by
  have printed : (run pageFiles (.flatten "hooks.json" ["base.json", "wide.json"]
      { debug := true, pixels := true })).value = .ok printedPage :=
    eq_ok_of_toOption (by decide +kernel)
  have rounded : ∀ literal ∈ Json.literalsIn printedPage.toList, literal.IsRounded := by
    decide +kernel
  exact ⟨printed, rounded, rfl, rfl, printed_style_is_printed_again printed rounded rfl rfl⟩

def printedNumber : String :=
  "\x7b\n  \"a\": [\n    3e+23\n  ]\n\x7d\n"

/-- A style with the same number in another spelling, and the printed style. -/
def driftingFiles : Files
  | "hooks.json" => some "\x7b\x7d"
  | "style.json" => some "\x7b\"a\":[30e22]\x7d"
  | "printed.json" => some printedNumber
  | _ => none

/-- Without that condition a printed style need not be printed again.  Here `30e22` is read as
the double nearest to it, which is printed as `3e+23`, but that is read as the double below. -/
theorem printed_number_drifts :
    (run driftingFiles (.flatten "hooks.json" ["style.json"] {})).value = .ok printedNumber ∧
      driftingFiles "printed.json" = some printedNumber ∧
      (run driftingFiles (.flatten "hooks.json" ["printed.json"] {})).value ≠
        .ok printedNumber := by
  refine ⟨eq_ok_of_toOption (by decide +kernel), rfl, fun same => ?_⟩
  have below : (run driftingFiles (.flatten "hooks.json" ["printed.json"] {})).value =
      .ok "\x7b\n  \"a\": [\n    2.9999999999999997e+23\n  ]\n\x7d\n" :=
    eq_ok_of_toOption (by decide +kernel)
  have equal := Except.ok.inj (below.symm.trans same)
  revert equal
  decide

end CommandLine

end ConditionalStyles
