import ConditionalStyles.Double.Layout
import ConditionalStyles.Style.Basic
import ConditionalStyles.Style.Unitless

/-!
# Rendering of style values

A renderer turns the value of a property into CSS text, or declines.  Values it
declines are left as they are and never take part in a conditional text.
-/

namespace ConditionalStyles

/-- The CSS text of a value of a property, if it has one. -/
abbrev Renderer := String → StyleValue → Option String

/-! ## Numbers -/

/-- Numbers in CSS have the fewest digits that identify them, without a power
of ten, and whole numbers have no fraction. -/
def Double.plainLayout : Layout where
  tie := .up
  positional _ := true
  fractionOfWhole := false
  signedZero := false

def Double.text : Double → String
  | .finite value => Double.plainLayout.text value
  | .infinite false => "Infinity"
  | .infinite true => "-Infinity"
  | .nan => "NaN"

/-! ## Renderers -/

namespace Renderer

/-- Texts as they are and numbers without a unit. -/
def plain : Renderer := fun _ value =>
  match value with
  | .text content => some content
  | .number number => some number.text
  | _ => none

/-- Texts as they are and numbers in pixels, where the property has units. -/
def pixels : Renderer := fun property value =>
  match value with
  | .number number =>
      if isUnitless property then some number.text else some (number.text ++ "px")
  | _ => plain property value

def isReference (content : String) : Bool :=
  "var(".toList.isPrefixOf content.toList

/-- Texts that start with a reference as they are, and other values as the
inner renderer has them, so that the result of rendering is never rendered
again. -/
def keepReferences (inner : Renderer) : Renderer := fun property value =>
  match value with
  | .text content =>
      if isReference content then some content else inner property value
  | _ => inner property value

end Renderer

end ConditionalStyles
