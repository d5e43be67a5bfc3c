/-!
# Sixteen-bit code units

Identifiers are computed on the sixteen-bit code units of a text.  A character
of the basic plane is one unit, every other character a surrogate pair.
-/

namespace ConditionalStyles

namespace Text

def pairBase : Nat := 0x10000

/-- The first unit of a surrogate pair lies in the 1024 units from here. -/
def leadBase : Nat := 0xD800

/-- The second unit of a surrogate pair lies in the 1024 units from here. -/
def trailBase : Nat := 0xDC00

def unitsOfChar (character : Char) : List UInt16 :=
  let point := character.toNat
  if point < pairBase then [UInt16.ofNat point]
  else
    [UInt16.ofNat (leadBase + (point - pairBase) / 0x400),
      UInt16.ofNat (trailBase + (point - pairBase) % 0x400)]

def units (text : String) : List UInt16 :=
  text.toList.flatMap unitsOfChar

/-- The character of a surrogate pair. -/
def ofPair (lead trail : Nat) : Char :=
  Char.ofNat (pairBase + (lead - leadBase) * 0x400 + (trail - trailBase))

def isLead (unit : Nat) : Bool :=
  leadBase ≤ unit && unit < leadBase + 0x400

def isTrail (unit : Nat) : Bool :=
  trailBase ≤ unit && unit < trailBase + 0x400

end Text

end ConditionalStyles
