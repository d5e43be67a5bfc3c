/-!
# Settings

Settings shared by the compiler and the flattener.
-/

namespace ConditionalStyles

/-- The keyword that stands where no value applies. -/
inductive Fallback where
  | unset
  | revertLayer
deriving DecidableEq

namespace Fallback

def keyword : Fallback → String
  | .unset => "unset"
  | .revertLayer => "revert-layer"

def ofKeyword? (keyword : String) : Option Fallback :=
  if keyword = Fallback.unset.keyword then some .unset
  else if keyword = Fallback.revertLayer.keyword then some .revertLayer
  else none

end Fallback

structure Settings where
  fallback : Fallback := .unset
  /-- Whether the order of the source decides, both between a branch and a
  later property and in the result. -/
  sort : Bool := false
  /-- Whether identifiers show the names of their hooks. -/
  debug : Bool := false
deriving DecidableEq

end ConditionalStyles
