import ConditionalStyles.Style.Basic

/-!
# Merging styles

Fragments are merged key by key.  A later fragment replaces the whole value of
a key, nested objects included.
-/

namespace ConditionalStyles

namespace Style

/-- Write the entries of a fragment, in place, or at the end if `sort` is set. -/
def mergeFragment (sort : Bool) (merged fragment : Style) : Style :=
  fragment.foldl (fun merged entry => Entries.write sort merged entry.1 entry.2) merged

/-- The fragments in one style.  A key has its last value, and the position of
its first occurrence, or of its last one if `sort` is set. -/
def merge (sort : Bool) (fragments : List Style) : Style :=
  fragments.foldl (mergeFragment sort) []

end Style

end ConditionalStyles
