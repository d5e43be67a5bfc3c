import ConditionalStyles.Double.Shortest

/-!
# Layout of a number

The digits of a number are written positionally or with a power of ten.  The
decisions a format makes are the fields of one record.
-/

namespace ConditionalStyles

/-- The decisions of a number format. -/
structure Layout where
  tie : Tie
  /-- Whether a number whose leading digit has this power of ten is written
  positionally. -/
  positional : Int → Bool
  fractionOfWhole : Bool
  signedZero : Bool

namespace Layout

/-- Digits with a decimal point after the first `place` of them.  A point
outside the digits is reached by zeros. -/
def positionalText (fractionOfWhole : Bool) (digits : List Char) (place : Int) :
    List Char :=
  match place with
  | .negSucc left => '0' :: '.' :: (List.replicate (left + 1) '0' ++ digits)
  | .ofNat 0 => '0' :: '.' :: digits
  | .ofNat place =>
      if digits.length ≤ place then
        digits ++ List.replicate (place - digits.length) '0' ++
          (if fractionOfWhole then ['.', '0'] else [])
      else digits.take place ++ '.' :: digits.drop place

/-- Digits with the point after the first one, then a signed power of ten. -/
def scientificText (digits : List Char) (exponent : Int) : List Char :=
  let significand :=
    match digits with
    | [] => []
    | [digit] => [digit]
    | digit :: rest => digit :: '.' :: rest
  let sign := if exponent < 0 then '-' else '+'
  significand ++ 'e' :: sign :: Numeral.chars 10 exponent.natAbs

def magnitude (layout : Layout) (number : Double.Finite) : List Char :=
  if number.isZero then positionalText layout.fractionOfWhole ['0'] 1
  else
    let decimal := number.shortest layout.tie
    let digits := Numeral.chars 10 decimal.coefficient
    let place := (digits.length : Int) + decimal.exponent
    if layout.positional (place - 1) then
      positionalText layout.fractionOfWhole digits place
    else scientificText digits (place - 1)

def text (layout : Layout) (number : Double.Finite) : String :=
  let sign :=
    if number.negative && (layout.signedZero || !number.isZero) then ['-'] else []
  String.ofList (sign ++ layout.magnitude number)

end Layout

end ConditionalStyles
