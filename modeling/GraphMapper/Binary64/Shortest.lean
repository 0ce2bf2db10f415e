import GraphMapper.Binary64

/-!
# The shortest decimal of a binary number

Of all decimals that round to a given number, `shortest` finds one with the fewest digits, and of
those the nearest. The decimals that round to `x` fill an interval around `x`, whose ends belong to
it when the mantissa of `x` is even. A decimal with `n` significant digits lies on the grid of the
multiples of a power of ten, and if any point of a grid lies in the interval then one of the two
neighbours of `x` on that grid does; so the grids are tried from the coarsest on, and seventeen
digits are always enough.
-/

namespace GraphMapper.Binary64

/-- A positive decimal, `significand * 10 ^ exponent`. -/
structure Decimal where
  significand : Nat
  exponent : Int
  deriving DecidableEq

/-- Which neighbour is taken when two are equally near. -/
inductive Tie where
  | up
  | toEven
  deriving DecidableEq

/-- The numbers that round to a finite number, in quarters of a unit of `2 ^ (-1074)`. -/
structure Interval where
  low : Nat
  value : Nat
  high : Nat
  closed : Bool

/-- The interval of the number with the given mantissa and scale. Below a power of two the numbers
lie twice as dense as above it. -/
def interval (mantissa scale : Nat) : Interval :=
  let unit := Nat.pow 2 scale
  let below := if mantissa = Nat.pow 2 52 ∧ 0 < scale then unit else 2 * unit
  { low := 4 * mantissa * unit - below
    value := 4 * mantissa * unit
    high := 4 * mantissa * unit + 2 * unit
    closed := mantissa % 2 = 0 }

/-- Quarters of a unit in one. -/
def quartersPerOne : Nat := 4 * unitsPerOne

/-- A decimal as a fraction. -/
def Decimal.ratio (d : Decimal) : Nat × Nat :=
  if 0 ≤ d.exponent then (d.significand * Nat.pow 10 d.exponent.toNat, 1)
  else (d.significand, Nat.pow 10 (-d.exponent).toNat)

/-- Whether the decimal lies in the interval. -/
def Interval.has (range : Interval) (d : Decimal) : Bool :=
  let (numerator, denominator) := d.ratio
  let quarters := numerator * quartersPerOne
  if range.closed then
    range.low * denominator ≤ quarters && quarters ≤ range.high * denominator
  else range.low * denominator < quarters && quarters < range.high * denominator

/-- The exponent `e` with `10 ^ e ≤ value < 10 ^ (e + 1)`, for a positive value. -/
def decimalExponent (value : Nat) : Int :=
  if quartersPerOne ≤ value then ((Nat.toDigits 10 (value / quartersPerOne)).length : Int) - 1
  else
    let places := (Nat.toDigits 10 (quartersPerOne / value)).length
    if quartersPerOne ≤ value * Nat.pow 10 (places - 1) then 1 - (places : Int) else -(places : Int)

/-- The greatest multiple of `10 ^ exponent` up to the value. -/
def floorOn (value : Nat) (exponent : Int) : Nat :=
  if 0 ≤ exponent then value / (quartersPerOne * Nat.pow 10 exponent.toNat)
  else value * Nat.pow 10 (-exponent).toNat / quartersPerOne

/-- How the value compares with the middle between a grid point and the next one. -/
def compareMiddle (value : Nat) (d : Decimal) : Ordering :=
  let middle : Decimal := ⟨10 * d.significand + 5, d.exponent - 1⟩
  let (numerator, denominator) := middle.ratio
  compare (value * denominator) (numerator * quartersPerOne)

/-- The neighbour of the value on the grid of `10 ^ exponent` that lies in its interval, the nearer
one if both do. -/
def onGrid (tie : Tie) (range : Interval) (exponent : Int) : Option Decimal :=
  let below : Decimal := ⟨floorOn range.value exponent, exponent⟩
  let above : Decimal := ⟨below.significand + 1, exponent⟩
  match range.has below, range.has above with
  | false, false => none
  | true, false => some below
  | false, true => some above
  | true, true =>
    match compareMiddle range.value below, tie with
    | .lt, _ => some below
    | .gt, _ => some above
    | .eq, .up => some above
    | .eq, .toEven => some (if below.significand % 2 = 0 then below else above)

/-- The decimal without zeros at the end of its significand. -/
def Decimal.trimmed (d : Decimal) : Decimal :=
  let zeros := ((Nat.toDigits 10 d.significand).reverse.takeWhile (· = '0')).length
  ⟨d.significand / Nat.pow 10 zeros, d.exponent + zeros⟩

/-- The shortest decimal of the positive number with the given mantissa and scale. -/
def shortest (tie : Tie) (mantissa scale : Nat) : Decimal :=
  let range := interval mantissa scale
  let top := decimalExponent range.value
  -- The grid of one digit first, then the finer ones.
  let found := (List.range 17).findSome? fun (n : Nat) => onGrid tie range (top - n)
  (found.getD ⟨floorOn range.value (top - 16), top - 16⟩).trimmed

end GraphMapper.Binary64
