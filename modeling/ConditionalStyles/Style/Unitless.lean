/-!
# Properties without a unit

A number stands for a length unless its property takes plain numbers.  The
properties that do are listed in camel case; the spelling with dashes is
recognized as well.
-/

namespace ConditionalStyles

/-- Properties whose numbers carry no unit, in camel case. -/
def unitlessProperties : List String :=
  ["animationIterationCount", "aspectRatio", "borderImageOutset",
    "borderImageSlice", "borderImageWidth", "boxFlex", "boxFlexGroup",
    "boxOrdinalGroup", "columnCount", "columns", "fillOpacity", "flex",
    "flexGrow", "flexNegative", "flexOrder", "flexPositive", "flexShrink",
    "floodOpacity", "fontWeight", "gridArea", "gridColumn", "gridColumnEnd",
    "gridColumnSpan", "gridColumnStart", "gridRow", "gridRowEnd", "gridRowSpan",
    "gridRowStart", "lineClamp", "lineHeight", "opacity", "order", "orphans",
    "scale", "stopOpacity", "strokeDasharray", "strokeDashoffset",
    "strokeMiterlimit", "strokeOpacity", "strokeWidth", "tabSize", "widows",
    "zIndex", "zoom"]

/-- Drop every dash; an ASCII letter after one is made a capital. -/
def joinWords (capital : Bool) : List Char → List Char
  | [] => []
  | '-' :: rest => joinWords true rest
  | character :: rest =>
      (if capital then character.toUpper else character) :: joinWords false rest

/-- The camel-case spelling of a property.  Dashes in front do not count. -/
def camelCase (property : String) : String :=
  String.ofList (joinWords false (property.toList.dropWhile fun c => c = '-'))

/-- Whether the numbers of a property carry no unit.  Custom properties are
among these, and both spellings of a property are recognized. -/
def isUnitless (property : String) : Bool :=
  let characters := property.toList
  if ['-', '-'].isPrefixOf characters then true
  else if characters.contains '-' then
    unitlessProperties.contains (camelCase property)
  else unitlessProperties.contains property

end ConditionalStyles
