import ConditionalStyles.CommandLine.Document

/-!
# Reading back what was written

A configuration that is written as a JSON value is read back as it was, both by
itself and under `hooks` in a document with settings.  The two forms of a document
are never mistaken for each other, whatever the hooks are called: a written
condition is a string or an object, but the operands of a composite are an array,
so that written hooks are never a condition.
-/

namespace ConditionalStyles

/-! ## Conditions -/

namespace Condition

theorem operatorOf_key (operator : Operator) (operands : Json) :
    operatorOf [(operator.key, operands)] = .ok operator := by
  cases operator <;> rfl

theorem decodeMember_eq (key : String) (members : Entries Json) :
    decodeMember key members =
      match members.get? key with
      | some operands => decodeOperands operands
      | none => .error .unrecognized := by
  induction members with
  | nil => rw [decodeMember, Entries.get?_nil]
  | cons member rest ih =>
      obtain ⟨name, value⟩ := member
      rw [decodeMember, Entries.get?_cons, ih]
      by_cases same : name = key <;> simp [same]

mutual

/-- A written condition is read as it was. -/
theorem decode_toJson (condition : Condition) : decode condition.toJson = .ok condition := by
  cases condition with
  | leaf text => rw [toJson, decode]
  | composite operator operands =>
      rw [toJson, decode, operatorOf_key]
      simp only [decodeMember, if_pos, decodeOperands, decodeAll_toJsonAll operands]

theorem decodeAll_toJsonAll (conditions : List Condition) :
    decodeAll (toJsonAll conditions) = .ok conditions := by
  match conditions with
  | [] => rw [toJsonAll, decodeAll]
  | first :: rest =>
      rw [toJsonAll, decodeAll, decode_toJson first, decodeAll_toJsonAll rest]

end

theorem ofJson_toJson (condition : Condition) :
    ofJson condition.toJson = pure (some condition) := by
  rw [ofJson, decode_toJson]

theorem decodeOperands_toJson (condition : Condition) :
    decodeOperands condition.toJson = .error .unrecognized := by
  cases condition with
  | leaf text => rfl
  | composite operator operands => rfl

end Condition

/-! ## Configurations -/

namespace Configuration

theorem eq_of_hooks {first second : Configuration} (same : first.hooks = second.hooks) :
    first = second := by
  cases first
  cases second
  cases same
  rfl

theorem insertMember_toJson (configuration : Configuration) (name : String)
    (condition : Condition) :
    configuration.insertMember (name, condition.toJson) =
      pure (configuration.insert name condition) := by
  rw [insertMember, Condition.ofJson_toJson]
  rfl

theorem hooks_insert_of_not_mem {configuration : Configuration} {name : String}
    (absent : name ∉ Entries.keys configuration.hooks) (condition : Condition) :
    (configuration.insert name condition).hooks =
      configuration.hooks ++ [(name, condition)] :=
  Entries.insert_of_not_mem absent condition

/-- Written hooks are declared one after the other. -/
theorem foldlM_insertMember (hooks : Entries Condition) {start result : Configuration}
    (declared : result.hooks = start.hooks ++ hooks) :
    (Entries.mapValues Condition.toJson hooks).foldlM insertMember start = pure result := by
  induction hooks generalizing start with
  | nil =>
      rw [List.append_nil] at declared
      rw [eq_of_hooks declared]
      rfl
  | cons hook rest ih =>
      obtain ⟨name, condition⟩ := hook
      -- The result lists no hook twice, so that this one is new.
      have absent : name ∉ Entries.keys start.hooks := by
        have distinct := result.nodup
        rw [declared] at distinct
        exact Entries.not_mem_keys_of_nodup distinct
      have inserted : result.hooks = (start.insert name condition).hooks ++ rest := by
        rw [declared, hooks_insert_of_not_mem absent, List.append_assoc,
          List.singleton_append]
      have unfolded : (Entries.mapValues Condition.toJson ((name, condition) :: rest)).foldlM
            insertMember start =
          start.insertMember (name, condition.toJson) >>=
            (Entries.mapValues Condition.toJson rest).foldlM insertMember := rfl
      rw [unfolded, insertMember_toJson]
      exact ih inserted

/-- A written configuration is read as it was, without a warning. -/
theorem ofJson_toJson (configuration : Configuration) :
    ofJson configuration.toJson = pure (.ok configuration) := by
  have members : ofMembers (configuration.hooks.mapValues Condition.toJson) =
      pure configuration :=
    foldlM_insertMember configuration.hooks rfl
  rw [toJson, ofJson, members]
  rfl

theorem decode_toJson_eq_error (configuration : Configuration) :
    ∃ malformed, Condition.decode configuration.toJson = .error malformed := by
  have noOperands (key : String) :
      Condition.decodeMember key (Entries.mapValues Condition.toJson configuration.hooks) =
        .error .unrecognized := by
    rw [Condition.decodeMember_eq, Entries.get?_mapValues]
    cases configuration.hooks.get? key with
    | none => rfl
    | some condition => exact Condition.decodeOperands_toJson condition
  rw [toJson, Condition.decode]
  cases Condition.operatorOf (Entries.mapValues Condition.toJson configuration.hooks) with
  | error malformed => exact ⟨malformed, rfl⟩
  | ok operator =>
      simp only [noOperands]
      exact ⟨.unrecognized, rfl⟩

theorem value_conditionOfJson_toJson (configuration : Configuration) :
    (Condition.ofJson configuration.toJson).value = none := by
  obtain ⟨malformed, failed⟩ := configuration.decode_toJson_eq_error
  rw [Condition.ofJson, failed]

end Configuration

/-! ## Settings -/

namespace Settings

def override (start settings : Settings) (given : List String) : Settings where
  fallback := if "fallback" ∈ given then settings.fallback else start.fallback
  sort := if "sort" ∈ given then settings.sort else start.sort
  debug := if "debug" ∈ given then settings.debug else start.debug

theorem override_override (start settings : Settings) (key : String) (given : List String) :
    (start.override settings [key]).override settings given =
      start.override settings (key :: given) := by
  have replaced {α : Type} (name : String) (new old : α) :
      (if name ∈ given then new else if name ∈ [key] then new else old) =
        if name ∈ key :: given then new else old := by
    by_cases later : name ∈ given <;> by_cases here : name = key <;> simp [later, here]
  simp only [override, replaced]

/-- Whether a member gives the setting that it is named for the value that it has in
some settings. -/
structure Gives (settings : Settings) (member : String × Json) : Prop where
  fallback : member.1 = "fallback" → member.2 = .string settings.fallback.keyword
  sort : member.1 = "sort" → member.2 = .boolean settings.sort
  debug : member.1 = "debug" → member.2 = .boolean settings.debug

theorem decodeKeyword_keyword (fallback : Fallback) :
    decodeKeyword fallback.keyword = .ok fallback := by
  cases fallback <;> rfl

theorem decodeMember_of_gives {settings : Settings} {member : String × Json}
    (gives : settings.Gives member) (start : Settings) :
    decodeMember start member = .ok (start.override settings [member.1]) := by
  obtain ⟨name, value⟩ := member
  rw [decodeMember]
  split
  · rename_i isFallback
    rw [gives.fallback isFallback, decodeFallback, decodeKeyword_keyword, isFallback]
    rfl
  · split
    · rename_i isSort
      rw [gives.sort isSort, isSort]
      rfl
    · split
      · rename_i isDebug
        rw [gives.debug isDebug, isDebug]
        rfl
      · rename_i notFallback notSort notDebug
        simp [override, Ne.symm notFallback, Ne.symm notSort, Ne.symm notDebug]

/-- Members that all give settings replace what they name, in whatever order. -/
theorem foldlM_decodeMember {settings : Settings} {members : Entries Json}
    (gives : ∀ member ∈ members, settings.Gives member) (start : Settings) :
    members.foldlM decodeMember start =
      .ok (start.override settings (Entries.keys members)) := by
  induction members generalizing start with
  | nil => rfl
  | cons member rest ih =>
      have step := decodeMember_of_gives (gives member List.mem_cons_self) start
      have later := ih (fun other mem => gives other (List.mem_cons_of_mem _ mem))
        (start.override settings [member.1])
      rw [List.foldlM_cons, step]
      exact later.trans (congrArg Except.ok
        (override_override start settings member.1 (Entries.keys rest)))

/-- Settings are read back from an object with their members in any order, among
members of other names. -/
theorem ofJson_of_perm {settings : Settings} {fields unknown members : Entries Json}
    (written : settings.toJson = .object fields)
    (isUnknown : ∀ key ∈ Entries.keys unknown, key ∉ names)
    (perm : members.Perm (fields ++ unknown)) :
    ofJson (.object members) = .ok settings := by
  obtain rfl := Json.object.inj written
  have gives : ∀ member ∈ members, settings.Gives member := by
    intro member mem
    rw [perm.mem_iff, List.mem_append] at mem
    rcases mem with field | other
    · simp only [List.mem_cons, List.not_mem_nil, or_false] at field
      rcases field with rfl | rfl | rfl <;> constructor <;> simp
    · have unnamed := isUnknown member.1 (List.mem_map_of_mem other)
      constructor <;> intro named <;> exact absurd (by simp [named, names]) unnamed
  have given : ∀ name ∈ names, name ∈ Entries.keys members := by
    intro name mem
    have keys := perm.map Prod.fst
    rw [Entries.keys, keys.mem_iff, List.map_append]
    exact List.mem_append_left _ mem
  rw [ofJson, foldlM_decodeMember gives, override, if_pos (given "fallback" (by simp [names])),
    if_pos (given "sort" (by simp [names])), if_pos (given "debug" (by simp [names]))]

end Settings

/-! ## Documents -/

namespace CommandLine

namespace Document

variable (configuration : Configuration)

theorem wrappedHooks?_toJson : wrappedHooks? configuration.toJson = pure none := by
  rw [Configuration.toJson, wrappedHooks?]
  simp only [Entries.get?_mapValues]
  split
  · split
    · rename_i hooks found
      -- What stands under `hooks` is a condition that was written.
      obtain ⟨condition, -, written⟩ := Option.map_eq_some_iff.1 found
      rw [← written, Condition.ofJson_toJson]
      rfl
    · rfl
  · rfl

theorem value_wrappedHooks? {members : Entries Json}
    (keys : ∀ key ∈ Entries.keys members, key = "hooks" ∨ key = "options")
    (hooks : Entries.get? members "hooks" = some configuration.toJson) :
    (wrappedHooks? (.object members)).value = some configuration.toJson := by
  have only : (Entries.keys members).all
      (fun key => key = "hooks" || key = "options") = true := by
    simpa using keys
  have noCondition := configuration.value_conditionOfJson_toJson
  rw [Configuration.toJson] at hooks noCondition ⊢
  simp only [wrappedHooks?, only, if_true, hooks, Reported.value_bind, noCondition,
    Reported.value_pure]

theorem value_ofHooks (settings : Settings) :
    (ofHooks settings configuration.toJson).value = .ok { configuration, settings } := by
  rw [ofHooks, Configuration.ofJson_toJson]
  rfl

/-- A document with hooks that were written is read with the settings that are read
from it. -/
theorem value_ofJson_of_hooks {members : Entries Json} {settings : Settings}
    (keys : ∀ key ∈ Entries.keys members, key = "hooks" ∨ key = "options")
    (hooks : Entries.get? members "hooks" = some configuration.toJson)
    (options : settingsOf (.object members) = .ok settings) :
    (ofJson (.object members)).value = .ok { configuration, settings } := by
  rw [ofJson, Reported.value_bind, value_wrappedHooks? configuration keys hooks]
  simp only [options, value_ofHooks]

/-- A written configuration is read as it was, without a warning and with default
settings.  So it is under `hooks`, with default settings if there are no others, and
else with the settings that are written under `options`: in either order, with their
members in any order and among members of other names. -/
theorem written_configuration_is_read :
    ofJson configuration.toJson = pure (.ok { configuration, settings := {} }) ∧
    (ofJson (.object [("hooks", configuration.toJson)])).value =
      .ok { configuration, settings := {} } ∧
    ∀ settings : Settings, ∃ fields, settings.toJson = .object fields ∧
      ∀ unknown options members : Entries Json,
        (∀ key ∈ Entries.keys unknown, key ∉ Settings.names) →
        options.Perm (fields ++ unknown) →
        members.Perm [("hooks", configuration.toJson), ("options", .object options)] →
        (ofJson (.object members)).value = .ok { configuration, settings } := by
  refine ⟨?_, ?_, ?_⟩
  · rw [ofJson, wrappedHooks?_toJson]
    change ofHooks {} configuration.toJson = _
    rw [ofHooks, Configuration.ofJson_toJson]
    rfl
  · exact value_ofJson_of_hooks configuration (by simp) (by simp) rfl
  · intro settings
    refine ⟨_, rfl, fun unknown options members isUnknown optionsPerm membersPerm => ?_⟩
    have keysPerm : (Entries.keys members).Perm ["hooks", "options"] :=
      membersPerm.map Prod.fst
    have distinct : (Entries.keys members).Nodup := keysPerm.nodup_iff.2 (by decide)
    refine value_ofJson_of_hooks configuration ?_ ?_ ?_
    · intro key mem
      simpa using keysPerm.mem_iff.1 mem
    · exact Entries.get?_eq_some_of_mem distinct (membersPerm.mem_iff.2 List.mem_cons_self)
    · have found : Entries.get? members "options" = some (.object options) :=
        Entries.get?_eq_some_of_mem distinct (membersPerm.mem_iff.2 (by simp))
      rw [settingsOf, Json.members?, Option.bind_some, found]
      exact Settings.ofJson_of_perm rfl isUnknown optionsPerm

/-- Hooks with the names that documents and conditions use for themselves. -/
def reservedNames : Configuration where
  hooks := [("or", .leaf "hover"), ("hooks", .composite .or []),
    ("and", .composite .and [.leaf ":hover", .composite .or [.leaf ".dark &"]]),
    ("options", .leaf ":focus")]
  nodup := by decide

def layeredSettings : Settings where
  fallback := .revertLayer
  sort := true
  debug := true

/-- Hooks with such names are read back after their settings, which are listed
backwards behind another member. -/
theorem reserved_names_are_read :
    (∀ key ∈ Entries.keys [("theme", Json.null)], key ∉ Settings.names) ∧
      ∃ fields, layeredSettings.toJson = .object fields ∧
        (ofJson (.object [("options", .object (("theme", .null) :: fields.reverse)),
          ("hooks", reservedNames.toJson)])).value =
        .ok { configuration := reservedNames, settings := layeredSettings } := by
  have isUnknown : ∀ key ∈ Entries.keys [("theme", Json.null)], key ∉ Settings.names := by
    decide
  obtain ⟨-, -, wrapped⟩ := written_configuration_is_read reservedNames
  obtain ⟨fields, written, read⟩ := wrapped layeredSettings
  have options : (("theme", Json.null) :: fields.reverse).Perm
      (fields ++ [("theme", Json.null)]) :=
    ((List.reverse_perm fields).cons _).trans (List.perm_append_singleton _ _).symm
  exact ⟨isUnknown, fields, written,
    read [("theme", .null)] _ _ isUnknown options (List.Perm.swap _ _ [])⟩

end Document

end CommandLine

end ConditionalStyles
