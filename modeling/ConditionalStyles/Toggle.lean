/-!
# Toggle pairs

Every hook owns two custom properties.  While the hook is false, the slot
`--<id>-0` is invalid and `--<id>-1` is valid and blank; while it is true the
two are exchanged.  A reference to a slot with a fallback therefore shows the
fallback exactly while the slot is invalid.
-/

namespace ConditionalStyles

/-- A member of a toggle pair, named for when its fallback shows. -/
inductive Slot where
  | whenFalse
  | whenTrue
deriving DecidableEq

namespace Slot

def digit : Slot → String
  | .whenFalse => "0"
  | .whenTrue => "1"

/-- The custom property of a slot, for the hook with the given identifier. -/
def property (slot : Slot) (id : String) : String :=
  "--" ++ id ++ "-" ++ slot.digit

end Slot

end ConditionalStyles
