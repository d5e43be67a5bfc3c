import ConditionalStyles.Configuration

/-!
# Common hooks

A ready-made configuration of the common pseudo-classes.
-/

namespace ConditionalStyles

namespace Configuration

/-- The common hooks with their selectors.  Several selectors of one hook are
alternatives. -/
def commonSelectors : List (String × List String) :=
  [("active", [":active"]),
    ("autofill", [":autofill", ":-webkit-autofill"]),
    ("checked", [":checked"]),
    ("default", [":default"]),
    ("disabled", [":disabled"]),
    ("empty", [":empty"]),
    ("enabled", [":enabled"]),
    ("evenChild", [":nth-child(even)"]),
    ("firstChild", [":first-child"]),
    ("firstOfType", [":first-of-type"]),
    ("focus", [":focus"]),
    ("focusVisible", [":focus-visible"]),
    ("focusWithin", [":focus-within"]),
    ("hover", [":hover"]),
    ("inRange", [":in-range"]),
    ("indeterminate", [":indeterminate"]),
    ("invalid", [":invalid"]),
    ("lastChild", [":last-child"]),
    ("lastOfType", [":last-of-type"]),
    ("oddChild", [":nth-child(odd)"]),
    ("onlyChild", [":only-child"]),
    ("onlyOfType", [":only-of-type"]),
    ("outOfRange", [":out-of-range"]),
    ("placeholderShown", [":placeholder-shown", ":-moz-placeholder-shown"]),
    ("readOnly", [":read-only", ":-moz-read-only"]),
    ("readWrite", [":read-write", ":-moz-read-write"]),
    ("required", [":required"]),
    ("target", [":target"]),
    ("valid", [":valid"]),
    ("visited", [":visited"])]

def anyOf : List String → Condition
  | [selector] => .leaf selector
  | selectors => .composite .or (selectors.map Condition.leaf)

def common : Configuration :=
  ofList (commonSelectors.map fun (name, selectors) => (name, anyOf selectors))

end Configuration

end ConditionalStyles
