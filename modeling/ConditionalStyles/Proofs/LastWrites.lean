import Mathlib.Data.List.Induction
import ConditionalStyles.Builder

/-!
# The last write of a part

A builder has five parts, and every adjustment writes some of them: a single setting, all
settings at once, the scheme of identifiers, or the renderer.  After any sequence of
adjustments a part holds what the last one that wrote it gave it.  So adjustments that write
different parts may change places, and the compiled hooks depend only on what was written to
the scheme and to the debug setting.
-/

namespace ConditionalStyles

namespace Builder

/-- A part of a builder that adjustments write. -/
inductive Part where
  | fallback
  | sort
  | debug
  | scheme
  | renderer

def Part.Value : Part → Type
  | .fallback => Fallback
  | .sort => Bool
  | .debug => Bool
  | .scheme => Identifier.Scheme
  | .renderer => Renderer

/-- What a part holds.  Only the scheme may be missing. -/
def read? (builder : Builder) : (part : Part) → Option part.Value
  | .fallback => some builder.settings.fallback
  | .sort => some builder.settings.sort
  | .debug => some builder.settings.debug
  | .scheme => builder.scheme
  | .renderer => some builder.renderer

end Builder

namespace Adjustment

open Builder

/-- What an adjustment writes to a part, if it writes the part. -/
def written? : Adjustment → (part : Part) → Option part.Value
  | .fallback value, .fallback => some value
  | .sort value, .sort => some value
  | .debug value, .debug => some value
  | .settings value, .fallback => some value.fallback
  | .settings value, .sort => some value.sort
  | .settings value, .debug => some value.debug
  | .scheme value, .scheme => some value
  | .renderer value, .renderer => some value
  | _, _ => none

def lastWrite? (part : Part) (adjustments : List Adjustment) : Option part.Value :=
  adjustments.reverse.findSome? fun adjustment => adjustment.written? part

/-- Whether no part is written by both of two adjustments. -/
def Apart (first second : Adjustment) : Prop :=
  ∀ part, first.written? part = none ∨ second.written? part = none

def lastSettings (adjustments : List Adjustment) : Settings where
  fallback := (lastWrite? .fallback adjustments).getD Fallback.unset
  sort := (lastWrite? .sort adjustments).getD false
  debug := (lastWrite? .debug adjustments).getD false

/-- The scheme that was written last, whatever was written to the settings; if none was, the
one that the last debug setting asks for. -/
def lastScheme (adjustments : List Adjustment) : Identifier.Scheme :=
  (lastWrite? .scheme adjustments).getD
    (if (lastSettings adjustments).debug then Identifier.readable else Identifier.anonymous)

def lastRenderer (adjustments : List Adjustment) : Renderer :=
  (lastWrite? .renderer adjustments).getD Renderer.plain

/-- What is left of an adjustment if only the naming of hooks matters. -/
def naming? : Adjustment → Option Adjustment
  | .debug value => some (.debug value)
  | .settings value => some (.debug value.debug)
  | .scheme value => some (.scheme value)
  | .fallback _ => none
  | .sort _ => none
  | .renderer _ => none

theorem lastWrite?_append (part : Part) (first second : List Adjustment) :
    lastWrite? part (first ++ second) =
      (lastWrite? part second).or (lastWrite? part first) := by
  rw [lastWrite?, List.reverse_append, List.findSome?_append, ← lastWrite?, ← lastWrite?]

theorem lastWrite?_singleton (part : Part) (adjustment : Adjustment) :
    lastWrite? part [adjustment] = adjustment.written? part :=
  List.findSome?_singleton

theorem lastWrite?_naming {part : Part} (names : part = .debug ∨ part = .scheme)
    (adjustments : List Adjustment) :
    lastWrite? part (adjustments.filterMap naming?) = lastWrite? part adjustments := by
  have single (adjustment : Adjustment) :
      lastWrite? part ([adjustment].filterMap naming?) = adjustment.written? part := by
    rcases names with rfl | rfl <;> cases adjustment <;> rfl
  induction adjustments using List.reverseRecOn with
  | nil => rfl
  | append_singleton adjustments adjustment ih =>
      rw [List.filterMap_append, lastWrite?_append, single, ih, lastWrite?_append,
        lastWrite?_singleton]

end Adjustment

namespace Builder

open Adjustment

variable {builder other : Builder}

theorem eq_of_read?_eq (configured : builder.configuration = other.configuration)
    (parts : ∀ part, builder.read? part = other.read? part) : builder = other := by
  obtain ⟨configuration, ⟨fallback, sort, debug⟩, scheme, renderer⟩ := builder
  obtain ⟨configuration', ⟨fallback', sort', debug'⟩, scheme', renderer'⟩ := other
  obtain rfl : configuration = configuration' := configured
  obtain rfl : fallback = fallback' := Option.some.inj (parts .fallback)
  obtain rfl : sort = sort' := Option.some.inj (parts .sort)
  obtain rfl : debug = debug' := Option.some.inj (parts .debug)
  obtain rfl : scheme = scheme' := parts .scheme
  obtain rfl : renderer = renderer' := Option.some.inj (parts .renderer)
  rfl

/-- An adjustment writes its parts and leaves the other ones. -/
theorem read?_adjust (builder : Builder) (adjustment : Adjustment) (part : Part) :
    (builder.adjust adjustment).read? part =
      (adjustment.written? part).or (builder.read? part) := by
  cases adjustment <;> cases part <;> rfl

theorem configuration_adjust (builder : Builder) (adjustment : Adjustment) :
    (builder.adjust adjustment).configuration = builder.configuration := by
  cases adjustment <;> rfl

theorem adjustAll_append (builder : Builder) (first second : List Adjustment) :
    builder.adjustAll (first ++ second) = (builder.adjustAll first).adjustAll second :=
  List.foldl_append

theorem adjustAll_concat (builder : Builder) (adjustments : List Adjustment)
    (adjustment : Adjustment) :
    builder.adjustAll (adjustments ++ [adjustment]) =
      (builder.adjustAll adjustments).adjust adjustment :=
  adjustAll_append builder adjustments [adjustment]

/-- After a sequence of adjustments a part holds its last write. -/
theorem read?_adjustAll (builder : Builder) (adjustments : List Adjustment) (part : Part) :
    (builder.adjustAll adjustments).read? part =
      (lastWrite? part adjustments).or (builder.read? part) := by
  induction adjustments using List.reverseRecOn with
  | nil => rfl
  | append_singleton adjustments adjustment ih =>
      rw [adjustAll_concat, read?_adjust, ih, lastWrite?_append, lastWrite?_singleton,
        Option.or_assoc]

theorem configuration_adjustAll (builder : Builder) (adjustments : List Adjustment) :
    (builder.adjustAll adjustments).configuration = builder.configuration := by
  induction adjustments using List.reverseRecOn with
  | nil => rfl
  | append_singleton adjustments adjustment ih =>
      rw [adjustAll_concat, configuration_adjust, ih]

/-- Adjustments that write different parts may change places. -/
theorem adjust_comm {first second : Adjustment} (apart : Apart first second)
    (builder : Builder) :
    (builder.adjust first).adjust second = (builder.adjust second).adjust first := by
  refine eq_of_read?_eq (by simp only [configuration_adjust]) fun part => ?_
  simp only [read?_adjust]
  rcases apart part with unwritten | unwritten
  · rw [unwritten, Option.none_or, Option.none_or]
  · rw [unwritten, Option.none_or, Option.none_or]

theorem adjustAll_new (configuration : Configuration) (adjustments : List Adjustment) :
    ({ configuration } : Builder).adjustAll adjustments =
      { configuration
        settings := lastSettings adjustments
        scheme := lastWrite? .scheme adjustments
        renderer := lastRenderer adjustments } := by
  refine eq_of_read?_eq (configuration_adjustAll _ adjustments) fun part => ?_
  rw [read?_adjustAll]
  cases part with
  | scheme => exact Option.or_none
  | fallback => exact Option.or_some
  | sort => exact Option.or_some
  | debug => exact Option.or_some
  | renderer => exact Option.or_some

/-- What is built from a configuration after any sequence of adjustments has the last write
of every setting, the hooks compiled under the last scheme or, without one, under the scheme
that the last debug setting asks for, and the last renderer; one style or several are
flattened with these.  Two neighbouring adjustments that write different parts may change
places, and the hooks are those that the writes of the scheme and of the debug setting alone
lead to. -/
theorem build_uses_last_writes (configuration : Configuration)
    (adjustments : List Adjustment) :
    (({ configuration } : Builder).adjustAll adjustments).build =
        { hooks := Compiled.ofConfiguration (lastScheme adjustments) configuration
          settings := lastSettings adjustments
          renderer := lastRenderer adjustments } ∧
      (∀ style, (({ configuration } : Builder).adjustAll adjustments).build.flatten style =
        Flattener.flatten
          { hooks := Compiled.ofConfiguration (lastScheme adjustments) configuration
            settings := lastSettings adjustments
            renderer := lastRenderer adjustments } style) ∧
      (∀ fragments,
        (({ configuration } : Builder).adjustAll adjustments).build.flattenAll fragments =
        Flattener.flattenAll
          { hooks := Compiled.ofConfiguration (lastScheme adjustments) configuration
            settings := lastSettings adjustments
            renderer := lastRenderer adjustments } fragments) ∧
      (∀ before first second after,
        adjustments = before ++ first :: second :: after → Apart first second →
          (({ configuration } : Builder).adjustAll
              (before ++ second :: first :: after)).build =
            (({ configuration } : Builder).adjustAll adjustments).build) ∧
      (({ configuration } : Builder).adjustAll adjustments).build.hooks =
        (({ configuration } : Builder).adjustAll (adjustments.filterMap naming?)).build.hooks := by
  have scheme (adjustments : List Adjustment) :
      (({ configuration } : Builder).adjustAll adjustments).chosenScheme =
        lastScheme adjustments := by
    rw [adjustAll_new, chosenScheme, lastScheme]
    cases lastWrite? .scheme adjustments with
    | none => rfl
    | some chosen => rfl
  have built (adjustments : List Adjustment) :
      (({ configuration } : Builder).adjustAll adjustments).build =
        { hooks := Compiled.ofConfiguration (lastScheme adjustments) configuration
          settings := lastSettings adjustments
          renderer := lastRenderer adjustments } := by
    rw [build, scheme, adjustAll_new]
  refine ⟨built adjustments, fun style => ?_, fun fragments => ?_, ?_, ?_⟩
  · rw [built, HookSet.flatten, HookSet.flattener]
  · rw [built, HookSet.flattenAll, HookSet.flattener]
  · rintro before first second after rfl apart
    have swapped (builder : Builder) : builder.adjustAll (second :: first :: after) =
        builder.adjustAll (first :: second :: after) :=
      congrArg (adjustAll · after) (adjust_comm apart builder).symm
    rw [adjustAll_append, adjustAll_append, swapped]
  · rw [built, built, lastScheme, lastScheme, lastSettings, lastSettings,
      lastWrite?_naming (.inr rfl), lastWrite?_naming (.inl rfl)]

/-- The debug setting may be written before or after the scheme, which wins either way. -/
theorem scheme_and_debug_change_places :
    Apart (.debug true) (.scheme (Identifier.named id)) ∧
      (({ configuration := .ofList [("hover", .leaf ":hover")] } : Builder).adjustAll
          [.settings { sort := true }, .scheme (Identifier.named id), .debug true,
            .fallback .revertLayer]).build =
        (({ configuration := .ofList [("hover", .leaf ":hover")] } : Builder).adjustAll
          [.settings { sort := true }, .debug true, .scheme (Identifier.named id),
            .fallback .revertLayer]).build ∧
      (({ configuration := .ofList [("hover", .leaf ":hover")] } : Builder).adjustAll
          [.settings { sort := true }, .scheme (Identifier.named id), .debug true,
            .fallback .revertLayer]).build.hooks.id? "hover" = some "hover" := by
  have apart : Apart (.debug true) (.scheme (Identifier.named id)) := by
    intro part
    cases part with
    | fallback => exact .inl rfl
    | sort => exact .inl rfl
    | debug => exact .inr rfl
    | scheme => exact .inl rfl
    | renderer => exact .inl rfl
  refine ⟨apart, ?_, rfl⟩
  exact (build_uses_last_writes _ _).2.2.2.1 [.settings { sort := true }] _ _
    [.fallback .revertLayer] rfl apart

end Builder

end ConditionalStyles
