import Mathlib.Data.List.Induction
import Mathlib.Logic.ExistsUnique
import ConditionalStyles.CommandLine.Arguments

/-!
# Arguments as items

The arguments after the name of a command are read as items, each of one or two
arguments.  Which items they are is stated as a grammar, and every list of arguments
has exactly one reading.  The command then depends on the items alone: on the first bad
one if there is one, and otherwise on the operands, on the last keyword for the
fallback and on which flags there are.
-/

namespace ConditionalStyles

namespace CommandLine

/-! ## The grammar of items -/

namespace Item

/-- The arguments that an item is written as.  Both ways to give a keyword mean the same,
and a keyword may be any argument. -/
inductive WrittenAs : Item → List String → Prop where
  | joined (keyword : String) : WrittenAs (.fallback (some keyword)) ["--fallback=" ++ keyword]
  | separate (keyword : String) : WrittenAs (.fallback (some keyword)) ["--fallback", keyword]
  | debug : WrittenAs .debug ["--debug"]
  | sort : WrittenAs .sort ["--sort"]
  | pixels : WrittenAs .pixels ["--px"]
  | unknownFlag {argument : String} (dashes : "--".toList <+: argument.toList)
      (noKeyword : ¬ "--fallback=".toList <+: argument.toList)
      (other : argument ∉ ["--fallback", "--debug", "--sort", "--px"]) :
      WrittenAs (.unknownFlag argument) [argument]
  | operand {argument : String} (noDashes : ¬ "--".toList <+: argument.toList) :
      WrittenAs (.operand argument) [argument]

/-- Arguments and the items that they are, from left to right.  Only at the end the flag
for the fallback stands without a keyword. -/
inductive Reads : List String → List Item → Prop where
  | done : Reads [] []
  | unfinished : Reads ["--fallback"] [.fallback none]
  | item {item : Item} {written rest : List String} {items : List Item}
      (first : item.WrittenAs written) (later : Reads rest items) :
      Reads (written ++ rest) (item :: items)

def fault? : Item → Option UsageError
  | .fallback none => some .missingKeyword
  | .fallback (some keyword) =>
      if (Fallback.ofKeyword? keyword).isSome then none else some (.unknownFallback keyword)
  | .unknownFlag argument => some (.unknownFlag argument)
  | _ => none

def keyword? : Item → Option String
  | .fallback keyword => keyword
  | _ => none

def operand? : Item → Option String
  | .operand argument => some argument
  | _ => none

end Item

/-- What items come to: the operands in order, the last keyword for the fallback, and
which of the flags there are. -/
def Given.summary (items : List Item) : Given where
  flags :=
    { fallback := (items.filterMap Item.keyword?).getLast?.bind Fallback.ofKeyword?
      sort := items.contains .sort
      debug := items.contains .debug
      pixels := items.contains .pixels }
  operands := items.filterMap Item.operand?

/-! ## Reading items -/

theorem textAfter?_eq_some_iff {beginning argument after : String} :
    textAfter? beginning argument = some after ↔ argument = beginning ++ after := by
  rw [textAfter?, ← String.length_toList]
  constructor
  · intro found
    split at found
    · rename_i begins
      obtain ⟨rest, same⟩ := List.isPrefixOf_iff_prefix.1 begins
      rw [← same, List.drop_left] at found
      rw [← Option.some.inj found, ← String.toList_inj, String.toList_append,
        String.toList_ofList, same]
    · simp at found
  · rintro rfl
    simp

theorem isSome_textAfter? {beginning argument : String} :
    (textAfter? beginning argument).isSome = true ↔ beginning.toList <+: argument.toList := by
  rw [textAfter?, ← List.isPrefixOf_iff_prefix]
  split <;> simp_all

namespace Item

theorem ofArguments_cons {argument : String} (single : argument ≠ "--fallback")
    (rest : List String) :
    ofArguments (argument :: rest) = ofArgument argument :: ofArguments rest := by
  cases rest with
  | nil => simp only [ofArguments, if_neg single]
  | cons next rest => rw [ofArguments, if_neg single]

theorem ofArgument_joined (keyword : String) :
    ofArgument ("--fallback=" ++ keyword) = .fallback (some keyword) := by
  rw [ofArgument, textAfter?_eq_some_iff.2 rfl]

theorem ofArgument_of_noKeyword {argument : String}
    (noKeyword : ¬ "--fallback=".toList <+: argument.toList) :
    ofArgument argument =
      if argument = "--debug" then .debug
      else if argument = "--sort" then .sort
      else if argument = "--px" then .pixels
      else if (textAfter? "--" argument).isSome then .unknownFlag argument
      else .operand argument := by
  have after : textAfter? "--fallback=" argument = none := by
    rw [← Option.not_isSome_iff_eq_none, isSome_textAfter?]
    exact noKeyword
  rw [ofArgument, after]

theorem writtenAs_ofArgument {argument : String} (single : argument ≠ "--fallback") :
    (ofArgument argument).WrittenAs [argument] := by
  by_cases begins : "--fallback=".toList <+: argument.toList
  · obtain ⟨keyword, after⟩ := Option.isSome_iff_exists.1 (isSome_textAfter?.2 begins)
    rw [textAfter?_eq_some_iff.1 after, ofArgument_joined]
    exact .joined keyword
  · rw [ofArgument_of_noKeyword begins]
    split_ifs with isDebug isSort isPixels dashes
    · exact isDebug ▸ .debug
    · exact isSort ▸ .sort
    · exact isPixels ▸ .pixels
    · have other : argument ∉ ["--fallback", "--debug", "--sort", "--px"] := by
        simp [single, isDebug, isSort, isPixels]
      exact .unknownFlag (isSome_textAfter?.1 dashes) begins other
    · exact .operand (mt isSome_textAfter?.2 dashes)

theorem reads_ofArguments (arguments : List String) : Reads arguments (ofArguments arguments) := by
  fun_induction ofArguments arguments with
  | case1 => exact .done
  | case2 => exact .unfinished
  | case3 argument single => exact .item (writtenAs_ofArgument single) .done
  | case4 keyword rest ih => exact .item (.separate keyword) ih
  | case5 argument next rest single ih => exact .item (writtenAs_ofArgument single) ih

theorem WrittenAs.ofArguments_append {item : Item} {written : List String}
    (writtenAs : item.WrittenAs written) (rest : List String) :
    ofArguments (written ++ rest) = item :: ofArguments rest := by
  cases writtenAs with
  | joined keyword =>
      have single : "--fallback=" ++ keyword ≠ "--fallback" := by
        intro same
        have lengths := congrArg String.length same
        have longer : "--fallback".length < "--fallback=".length := by decide
        rw [String.length_append] at lengths
        omega
      rw [List.singleton_append, ofArguments_cons single, ofArgument_joined]
  | separate keyword => rw [List.cons_append, List.singleton_append, ofArguments, if_pos rfl]
  | debug => exact ofArguments_cons (by decide) rest
  | sort => exact ofArguments_cons (by decide) rest
  | pixels => exact ofArguments_cons (by decide) rest
  | @unknownFlag argument dashes noKeyword other =>
      simp only [List.mem_cons, List.not_mem_nil, or_false, not_or] at other
      obtain ⟨single, notDebug, notSort, notPixels⟩ := other
      rw [List.singleton_append, ofArguments_cons single, ofArgument_of_noKeyword noKeyword,
        if_neg notDebug, if_neg notSort, if_neg notPixels,
        if_pos (isSome_textAfter?.2 dashes)]
  | @operand argument noDashes =>
      have noFlag {flag : String} (dashes : "--".toList <+: flag.toList) : argument ≠ flag := by
        rintro rfl
        exact noDashes dashes
      have noKeyword : ¬ "--fallback=".toList <+: argument.toList :=
        fun begins => noDashes (List.IsPrefix.trans (by decide) begins)
      rw [List.singleton_append, ofArguments_cons (noFlag (by decide)),
        ofArgument_of_noKeyword noKeyword, if_neg (noFlag (by decide)),
        if_neg (noFlag (by decide)), if_neg (noFlag (by decide)),
        if_neg (mt isSome_textAfter?.1 noDashes)]

theorem Reads.ofArguments_eq {arguments : List String} {items : List Item}
    (reads : Reads arguments items) : ofArguments arguments = items := by
  induction reads with
  | done => rfl
  | unfinished => rfl
  | item first later ih => rw [first.ofArguments_append, ih]

/-- Every list of arguments is read in exactly one way. -/
theorem existsUnique_reads (arguments : List String) : ∃! items, Reads arguments items := by
  refine ⟨ofArguments arguments, reads_ofArguments arguments, ?_⟩
  intro items reads
  exact reads.ofArguments_eq.symm

theorem reads_flatten {items : List Item} {written : List (List String)}
    (each : List.Forall₂ WrittenAs items written) : Reads written.flatten items := by
  induction each with
  | nil => exact .done
  | cons first _ ih => exact .item first ih

end Item

/-! ## Taking in items -/

/-- One more item is taken in, or is the reason to fail. -/
theorem Given.add_summary (items : List Item) (item : Item) :
    (summary items).add item =
      match item.fault? with
      | some error => .error error
      | none => .ok (summary (items ++ [item])) := by
  cases item with
  | fallback keyword =>
      cases keyword with
      | none => rfl
      | some keyword =>
          cases known : Fallback.ofKeyword? keyword <;>
            simp [add, summary, Item.fault?, Item.keyword?, Item.operand?, known]
  | unknownFlag argument => rfl
  | debug | sort | pixels | operand =>
      simp [add, summary, Item.fault?, Item.keyword?, Item.operand?]

/-- Items are taken in up to the first bad one. -/
theorem Given.ofItems_eq (items : List Item) :
    ofItems items =
      match items.findSome? Item.fault? with
      | some error => .error error
      | none => .ok (summary items) := by
  induction items using List.reverseRecOn with
  | nil => rfl
  | append_singleton items item ih =>
      rw [ofItems, List.foldlM_append, ← ofItems, ih, List.findSome?_append]
      cases items.findSome? Item.fault? with
      | some error => rfl
      | none =>
          change (summary items).add item >>= pure = _
          rw [bind_pure, add_summary]
          simp

/-- The order of items does not matter except among operands and among keywords. -/
theorem Given.summary_eq_of_perm {items items' : List Item} (perm : items.Perm items')
    (operands : items.filterMap Item.operand? = items'.filterMap Item.operand?)
    (keywords : items.filterMap Item.keyword? = items'.filterMap Item.keyword?) :
    summary items = summary items' := by
  have given (flag : Item) : items.contains flag = items'.contains flag := by
    rw [Bool.eq_iff_iff, List.contains_iff_mem, List.contains_iff_mem, perm.mem_iff]
  simp only [summary, operands, keywords, given]

theorem Command.ofArguments_of_reads {arguments : List String} {items : List Item}
    (reads : Item.Reads arguments items) (name : String) :
    ofArguments (name :: arguments) =
      match items.findSome? Item.fault? with
      | some error => .error error
      | none => ofGiven name (Given.summary items) := by
  rw [ofArguments, reads.ofArguments_eq, Given.ofItems_eq]
  cases items.findSome? Item.fault? <;> rfl

/-- Arguments are read as items in exactly one way, and the first bad item is why they
make no command, whatever the command.  If no item is bad, the outcome is that of the
command's name with the operands, the last keyword and the flags that there are.  So
neither the order of the items nor the spelling of a keyword matters as long as operands
and keywords each keep their order, and items may be written in any order and spelling.
Without arguments the command is help. -/
theorem parsing_depends_on_items :
    (∀ arguments, ∃! items, Item.Reads arguments items) ∧
    (∀ name arguments items error, Item.Reads arguments items →
      items.findSome? Item.fault? = some error →
      Command.ofArguments (name :: arguments) = .error error) ∧
    (∀ name arguments items, Item.Reads arguments items →
      items.findSome? Item.fault? = none →
      Command.ofArguments (name :: arguments) =
        Command.ofGiven name (Given.summary items)) ∧
    (∀ name arguments arguments' items items', Item.Reads arguments items →
      Item.Reads arguments' items' → items.findSome? Item.fault? = none →
      items.Perm items' →
      items.filterMap Item.operand? = items'.filterMap Item.operand? →
      items.filterMap Item.keyword? = items'.filterMap Item.keyword? →
      Command.ofArguments (name :: arguments) = Command.ofArguments (name :: arguments')) ∧
    (∀ items written, List.Forall₂ Item.WrittenAs items written →
      Item.Reads written.flatten items) ∧
    Command.ofArguments [] = .ok .help := by
  refine ⟨Item.existsUnique_reads, ?_, ?_, ?_, fun items written => Item.reads_flatten, rfl⟩
  · intro name arguments items error reads bad
    rw [Command.ofArguments_of_reads reads, bad]
  · intro name arguments items reads good
    rw [Command.ofArguments_of_reads reads, good]
  · intro name arguments arguments' items items' reads reads' good perm operands keywords
    have good' : items'.findSome? Item.fault? = none := by
      rw [List.findSome?_eq_none_iff] at good ⊢
      intro item mem
      exact good item (perm.mem_iff.2 mem)
    rw [Command.ofArguments_of_reads reads, Command.ofArguments_of_reads reads', good, good',
      Given.summary_eq_of_perm perm operands keywords]

/-- A keyword that looks like a flag, before a flag that is none. -/
def misread : List Item := [.fallback (some "--sort"), .unknownFlag "--nope"]

def scattered : List Item :=
  [.fallback (some "unset"), .operand "hooks.json", .sort, .operand "-",
    .fallback (some "revert-layer")]

def gathered : List Item :=
  [.operand "hooks.json", .operand "-", .fallback (some "unset"),
    .fallback (some "revert-layer"), .sort]

def scatteredArguments : List String :=
  ["--fallback", "unset", "hooks.json", "--sort", "-", "--fallback=revert-layer"]

def gatheredArguments : List (List String) :=
  [["hooks.json"], ["-"], ["--fallback=unset"], ["--fallback", "revert-layer"], ["--sort"]]

/-- The keyword is what is wrong with the first items, and the others ask for the same
wherever they stand and however their keywords are spelled. -/
theorem parsing_depends_on_scattered_items :
    (Item.Reads ["--fallback", "--sort", "--nope"] misread ∧
      misread.findSome? Item.fault? = some (.unknownFallback "--sort") ∧
      Command.ofArguments ["compile", "--fallback", "--sort", "--nope"] =
        .error (.unknownFallback "--sort")) ∧
    (Item.Reads scatteredArguments scattered ∧
      scattered.findSome? Item.fault? = none ∧
      Command.ofArguments ("flatten" :: scatteredArguments) =
        .ok (.flatten "hooks.json" ["-"] { fallback := some .revertLayer, sort := true })) ∧
    List.Forall₂ Item.WrittenAs gathered gatheredArguments ∧
    scattered.Perm gathered ∧
      scattered.filterMap Item.operand? = gathered.filterMap Item.operand? ∧
      scattered.filterMap Item.keyword? = gathered.filterMap Item.keyword? ∧
      Command.ofArguments ("flatten" :: scatteredArguments) =
        Command.ofArguments ("flatten" :: gatheredArguments.flatten) := by
  obtain ⟨-, failing, outcome, reordered, writing, -⟩ := parsing_depends_on_items
  have bad : Item.Reads ["--fallback", "--sort", "--nope"] misread :=
    .item (.separate "--sort")
      (.item (.unknownFlag (by decide) (by decide) (by decide)) .done)
  have reads : Item.Reads scatteredArguments scattered :=
    .item (.separate "unset") (.item (.operand (by decide)) (.item .sort
      (.item (.operand (by decide)) (.item (.joined "revert-layer") .done))))
  have written : List.Forall₂ Item.WrittenAs gathered gatheredArguments :=
    .cons (.operand (by decide)) (.cons (.operand (by decide)) (.cons (.joined "unset")
      (.cons (.separate "revert-layer") (.cons .sort .nil))))
  have perm : scattered.Perm gathered := by decide
  exact ⟨⟨bad, rfl, failing "compile" _ _ _ bad rfl⟩,
    ⟨reads, rfl, outcome "flatten" _ _ reads rfl⟩, written, perm, rfl, rfl,
    reordered "flatten" _ _ _ _ reads (writing _ _ written) rfl perm rfl rfl⟩

end CommandLine

end ConditionalStyles
