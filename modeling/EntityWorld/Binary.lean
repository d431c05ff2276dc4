namespace EntityWorld

/-- How many bits an encoding has for the fraction and for the exponent. The conversions between
    formats work on encodings, so what they do is a matter of arithmetic on natural numbers. -/
structure BinaryFormat where
  fractionBits : Nat
  exponentBits : Nat

namespace BinaryFormat

def single : BinaryFormat := ⟨23, 8⟩

def double : BinaryFormat := ⟨52, 11⟩

/-- The exponent field of infinities and of what is no number. -/
def topField (format : BinaryFormat) : Nat :=
  1 <<< format.exponentBits - 1

/-- How far below its field the exponent of the unit in the last place lies. -/
def offset (format : BinaryFormat) : Int :=
  (1 <<< (format.exponentBits - 1) + format.fractionBits : Nat) - 1

end BinaryFormat

/-- What an encoding stands for. A finite number is its significand times two
    to the exponent. `halved` marks the significands at which the numbers below
    lie twice as close as those above. -/
inductive Binary where
  | notANumber
  | infinite (negative : Bool)
  | finite (negative : Bool) (significand : Nat) (exponent : Int) (halved : Bool)

/-- Reads an encoding. A field of zero means no hidden leading bit, and the
    same exponent as a field of one. -/
def Binary.decode (format : BinaryFormat) (bits : Nat) : Binary :=
  let fraction := bits % 1 <<< format.fractionBits
  let field := bits >>> format.fractionBits % 1 <<< format.exponentBits
  let negative := bits >>> (format.fractionBits + format.exponentBits) % 2 == 1
  if field = format.topField then
    if fraction = 0 then infinite negative else notANumber
  else if field = 0 then
    finite negative fraction (1 - format.offset) false
  else
    finite negative (1 <<< format.fractionBits + fraction) (field - format.offset)
      (fraction == 0 && field != 1)

def Binary.ofFloat (x : Float) : Binary :=
  decode .double x.toBits.toNat

def Binary.ofFloat32 (x : Float32) : Binary :=
  decode .single x.toBits.toNat

/-- `n` over two to the `places`, to the nearest whole number. Halves go to
    the even neighbour. -/
def roundHalfEven (n places : Nat) : Nat :=
  let whole := n >>> places
  let rest := 2 * (n % 1 <<< places)
  if rest < 1 <<< places then whole
  else if 1 <<< places < rest then whole + 1
  else whole + whole % 2

/-- The encoding of the single nearest to a finite double, sign left out.
    Rounding up past a power of two carries into the exponent field as it
    should, and what exceeds the largest single becomes infinite. -/
def narrowMagnitude (field fraction : Nat) : Nat :=
  let significand := if field = 0 then fraction else 1 <<< 52 + fraction
  let places := 29 + (897 - max field 1)
  min ((field - 897) <<< 23 + roundHalfEven significand places) (255 <<< 23)

/-- The single nearest to a double, halves going to the even neighbour. -/
def narrow (x : Float) : Float32 :=
  let bits := x.toBits.toNat
  let sign := bits >>> 63 <<< 31
  let field := bits >>> 52 % 1 <<< 11
  let fraction := bits % 1 <<< 52
  let magnitude :=
    if field = 2047 then
      255 <<< 23 + (if fraction = 0 then 0 else 1 <<< 22)
    else
      narrowMagnitude field fraction
  Float32.ofBits (sign + magnitude).toUInt32

/-- The encoding of the double equal to a finite single, sign left out. A
    single without a hidden bit has one as a double, unless it is zero. -/
def widenMagnitude (field fraction : Nat) : Nat :=
  if field = 0 then
    if fraction = 0 then 0
    else (873 + fraction.log2) <<< 52 + fraction <<< (52 - fraction.log2)
  else
    (896 + field) <<< 52 + fraction <<< 29

/-- The double equal to a single. -/
def widen (x : Float32) : Float :=
  let bits := x.toBits.toNat
  let sign := bits >>> 31 <<< 63
  let field := bits >>> 23 % 1 <<< 8
  let fraction := bits % 1 <<< 23
  let magnitude :=
    if field = 255 then
      2047 <<< 52 + (if fraction = 0 then 0 else 1 <<< 51)
    else
      widenMagnitude field fraction
  Float.ofBits (sign + magnitude).toUInt64

end EntityWorld
