import ConditionalStyles.Style.Flatten

/-!
# Building hooks

A configuration is first given settings and then compiled.  Every adjustment
writes its own part of the builder, and the last write of a part counts,
whatever was written in between.  The hooks that are built keep the settings and
the renderer, with which they flatten styles.
-/

namespace ConditionalStyles

/-- Compiled hooks with what they flatten styles with. -/
structure HookSet where
  hooks : Compiled
  settings : Settings
  renderer : Renderer

namespace HookSet

def flattener (set : HookSet) : Flattener where
  hooks := set.hooks
  settings := set.settings
  renderer := set.renderer

def flatten (set : HookSet) (style : Style) : Style :=
  set.flattener.flatten style

/-- Merge fragments, later ones winning, and flatten the result. -/
def flattenAll (set : HookSet) (fragments : List Style) : Style :=
  set.flattener.flattenAll fragments

end HookSet

structure Builder where
  configuration : Configuration
  settings : Settings := {}
  /-- The scheme of identifiers, if one was chosen. -/
  scheme : Option Identifier.Scheme := none
  renderer : Renderer := Renderer.plain

inductive Adjustment where
  | fallback (value : Fallback)
  | sort (value : Bool)
  | debug (value : Bool)
  | settings (value : Settings)
  /-- The scheme of identifiers, whatever the settings say. -/
  | scheme (value : Identifier.Scheme)
  | renderer (value : Renderer)

namespace Builder

def adjust (builder : Builder) : Adjustment → Builder
  | .fallback value =>
      { builder with settings := { builder.settings with fallback := value } }
  | .sort value => { builder with settings := { builder.settings with sort := value } }
  | .debug value => { builder with settings := { builder.settings with debug := value } }
  | .settings value => { builder with settings := value }
  | .scheme value => { builder with scheme := some value }
  | .renderer value => { builder with renderer := value }

def adjustAll (builder : Builder) (adjustments : List Adjustment) : Builder :=
  adjustments.foldl adjust builder

/-- The scheme in use: the one chosen, else the one that the settings ask for. -/
def chosenScheme (builder : Builder) : Identifier.Scheme :=
  match builder.scheme with
  | some scheme => scheme
  | none => if builder.settings.debug then Identifier.readable else Identifier.anonymous

def build (builder : Builder) : HookSet where
  hooks := Compiled.ofConfiguration builder.chosenScheme builder.configuration
  settings := builder.settings
  renderer := builder.renderer

end Builder

end ConditionalStyles
