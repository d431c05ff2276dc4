import EntityWorld.Binary
import EntityWorld.Decimal.Shortest

namespace EntityWorld

namespace Decimal

def zeros (count : Int) : List Char :=
  List.replicate count.toNat '0'

/-- The digits with the point in its place. A number without a fraction is
    followed by `wholeEnd`. -/
def positional (decimal : Decimal) (wholeEnd : String) : String :=
  if decimal.point ≤ 0 then
    "0." ++ String.ofList (zeros (-decimal.point) ++ decimal.digits)
  else if (decimal.digits.length : Int) ≤ decimal.point then
    String.ofList (decimal.digits ++ zeros (decimal.point - decimal.digits.length)) ++ wholeEnd
  else
    String.ofList (decimal.digits.take decimal.point.toNat ++
      '.' :: decimal.digits.drop decimal.point.toNat)

/-- The first digit, the others after a point, and the exponent. -/
def scientific (decimal : Decimal) : String :=
  let mantissa := match decimal.digits with
    | [] => []
    | [digit] => [digit]
    | digit :: digits => digit :: '.' :: digits
  String.ofList mantissa ++ "e" ++ toString (decimal.point - 1)

end Decimal

/-- Choices in writing a floating-point number: what ends a whole number, and
    which exponents of the first digit are written out. -/
structure NumberLayout where
  wholeEnd : String
  usesExponent : Int → Bool

/-- The text of a binary number: the fewest digits that read back, laid out as
    chosen. Zero is written out and has a sign. -/
def NumberLayout.text (layout : NumberLayout) : Binary → String
  | .notANumber => "NaN"
  | .infinite negative => signText negative ++ "inf"
  | .finite negative 0 _ _ => signText negative ++ "0" ++ layout.wholeEnd
  | .finite negative significand exponent halved =>
    let decimal := Decimal.shortest significand exponent halved
    signText negative ++
      if layout.usesExponent (decimal.point - 1) then decimal.scientific
      else decimal.positional layout.wholeEnd
where
  signText (negative : Bool) : String := if negative then "-" else ""

end EntityWorld
