/-!
# Binary floating-point numbers

The numbers of the interchange format binary64, each written as what it denotes: a finite number is
a sign and `mantissa * 2 ^ scale` units of `2 ^ (-1074)`, in the one form with a mantissa below
`2 ^ 53` that uses the least scale. All arithmetic is exact on natural numbers and ends in a single
rounding, `ofRatio`, to the nearest number, of two equally near ones to the one with an even
mantissa.
-/

namespace GraphMapper

/-- A mantissa and a scale in the one form that denotes their product. -/
def Binary64.Canonical (mantissa scale : Nat) : Prop :=
  mantissa < Nat.pow 2 53 ∧ scale ≤ 2045 ∧ (0 < scale → Nat.pow 2 52 ≤ mantissa)

instance (mantissa scale : Nat) : Decidable (Binary64.Canonical mantissa scale) := by
  unfold Binary64.Canonical; infer_instance

/-- A number of the format binary64; zero has a sign, and there is one value that is no number. -/
inductive Binary64 where
  | nan
  | infinite (negative : Bool)
  | finite (negative : Bool) (mantissa scale : Nat)
      (canonical : Binary64.Canonical mantissa scale)
  deriving DecidableEq

namespace Binary64

/-- How many units of `2 ^ (-1074)` make one. -/
def unitsPerOne : Nat := Nat.pow 2 1074

/-- Zero with the given sign. -/
def zero (negative : Bool) : Binary64 :=
  .finite negative 0 0 (by decide)

/-- The number `mantissa * 2 ^ scale` of units, infinite when it is too great. The form is brought
to the canonical one first where the mantissa is `2 ^ 53`, as it is after rounding up. -/
def ofParts (negative : Bool) (mantissa scale : Nat) : Binary64 :=
  if h : Canonical mantissa scale then .finite negative mantissa scale h
  else if h : Canonical (mantissa / 2) (scale + 1) then
    .finite negative (mantissa / 2) (scale + 1) h
  else .infinite negative

/-- The quotient rounded to the nearest natural number, a half to the even one. -/
def roundQuotient (numerator denominator : Nat) : Nat :=
  let quotient := numerator / denominator
  let twice := 2 * (numerator % denominator)
  if twice < denominator then quotient
  else if denominator < twice then quotient + 1
  else quotient + quotient % 2

/-- The least scale at which `units` needs no more than 53 binary digits. -/
def scaleOf (units : Nat) : Nat :=
  Nat.log2 units - 52

/-- The number nearest to `numerator / denominator`; the denominator is positive. -/
def ofRatio (negative : Bool) (numerator denominator : Nat) : Binary64 :=
  let units := numerator * unitsPerOne
  let scale := scaleOf (units / denominator)
  ofParts negative (roundQuotient units (denominator * Nat.pow 2 scale)) scale

/-- The number nearest to an integer. Zero is positive. -/
def ofInt (i : Int) : Binary64 :=
  ofRatio (i < 0) i.natAbs 1

/-- The magnitude of a finite number in units of `2 ^ (-1074)`. -/
def units? : Binary64 → Option Nat
  | .finite _ mantissa scale _ => some (mantissa * Nat.pow 2 scale)
  | _ => none

/-- Whether it is a number and not infinite. -/
def isFinite : Binary64 → Bool
  | .finite .. => true
  | _ => false

/-- The integer that a finite number denotes, if it denotes one. -/
def toInt? : Binary64 → Option Int
  | .finite negative mantissa scale _ =>
    let units := mantissa * Nat.pow 2 scale
    if units % unitsPerOne = 0 then
      let magnitude : Int := (units / unitsPerOne : Nat)
      some (if negative then -magnitude else magnitude)
    else none
  | _ => none

/-- The product of two magnitudes, rounded once. -/
def mulMagnitude (x y : Nat) : Binary64 :=
  ofRatio false (x * y) (unitsPerOne * unitsPerOne)

/-- The quotient of two magnitudes, rounded once; the divisor is positive. -/
def divMagnitude (x y : Nat) : Binary64 :=
  ofRatio false x y

end Binary64

end GraphMapper
