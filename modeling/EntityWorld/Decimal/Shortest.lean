namespace EntityWorld.Decimal

/-- The cell of a positive number, the reals that are nearer to it than to its neighbours and so
    read back as it: numerators over the common denominator `unit`. The ends belong to the cell iff
    it is closed. -/
structure Cell where
  low : Nat
  value : Nat
  high : Nat
  unit : Nat
  closed : Bool

/-- The cell of `significand` times two to the `exponent`. It reaches half way
    to the neighbours, and where these lie closer below, half as far there. The
    ends read back as the neighbour with the even significand. -/
def Cell.ofBinary (significand : Nat) (exponent : Int) (halved : Bool) : Cell :=
  { low := (4 * significand - if halved then 1 else 2) <<< exponent.toNat
    value := (4 * significand) <<< exponent.toNat
    high := (4 * significand + 2) <<< exponent.toNat
    unit := 4 <<< (-exponent).toNat
    closed := significand % 2 == 0 }

def Cell.contains (cell : Cell) (numerator : Nat) : Bool :=
  if cell.closed then cell.low ≤ numerator && numerator ≤ cell.high
  else cell.low < numerator && numerator < cell.high

/-- The same cell with all numerators and the denominator multiplied such that
    ten to the `place` is a whole number of `Prod.snd` units. -/
def Cell.grid (cell : Cell) (place : Int) : Cell × Nat :=
  let factor := Nat.pow 10 (-place).toNat
  ({ cell with low := cell.low * factor, value := cell.value * factor, high := cell.high * factor },
    cell.unit * Nat.pow 10 place.toNat)

/-- The multiple of ten to the `place` within the cell that is nearest to the
    number, as a count. Of two equally near the larger is taken. -/
def Cell.nearest? (cell : Cell) (place : Int) : Option Nat :=
  let (cell, step) := cell.grid place
  let below := cell.value / step
  match cell.contains (below * step), cell.contains ((below + 1) * step) with
  | true, true =>
    if cell.value - below * step < (below + 1) * step - cell.value then some below
    else some (below + 1)
  | true, false => some below
  | false, true => some (below + 1)
  | false, false => none

/-- The first grid, from `place` downwards, with a multiple in the cell. On each grid only the two
    multiples next to the number matter, since the others lie farther out. After `grids` grids in
    vain the multiple below the number is taken. -/
def Cell.search (cell : Cell) : Nat → Int → Nat × Int
  | 0, place =>
    let (cell, step) := cell.grid place
    (cell.value / step, place)
  | grids + 1, place =>
    match cell.nearest? place with
    | some count => (count, place)
    | none => cell.search grids (place - 1)

/-- The place of the first digit of a number, or the one before it. -/
def Cell.leadingPlace (cell : Cell) : Int :=
  if cell.unit ≤ cell.value then
    (Nat.toDigits 10 (cell.value / cell.unit)).length
  else
    1 - ((Nat.toDigits 10 (cell.unit / cell.value)).length : Int)

end Decimal

/-- A positive decimal by its digits, of which the first and the last are not
    zero, and the place of the point relative to the first digit. -/
structure Decimal where
  digits : List Char
  point : Int

/-- The shortest decimal in the cell of a positive binary number, and of those
    the nearest. No number of a format with at most 64 bits needs more than 17
    digits, so 19 grids suffice. -/
def Decimal.shortest (significand : Nat) (exponent : Int) (halved : Bool) : Decimal :=
  let cell := Cell.ofBinary significand exponent halved
  let (count, place) := cell.search 19 cell.leadingPlace
  let digits := Nat.toDigits 10 count
  ⟨(digits.reverse.dropWhile (· == '0')).reverse, digits.length + place⟩

end EntityWorld
