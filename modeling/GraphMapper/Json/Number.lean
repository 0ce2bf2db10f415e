import GraphMapper.Json

/-!
# Numbers in JSON

A number literal is an integer where it has neither fraction nor exponent and fits 64 bits, signed
when it is negative and unsigned when it is not; any other literal is a floating-point number. Of
its digits only those count that keep the significand within 64 bits, and the significand is
brought to its power of ten in one rounded step, or in several when the power is below `1e-308`. A
literal beyond the greatest finite number has no value.
-/

namespace GraphMapper.Json

/-- A number as it is written. -/
structure NumberLiteral where
  negative : Bool
  whole : List Char
  fraction : Option (List Char)
  exponent : Option Int
  deriving DecidableEq

/-- Reads the part of a literal behind its digits. -/
def literalExponent? : List Char → Option (Option Int)
  | [] => some none
  | c :: rest => if c = 'e' ∨ c = 'E' then (Text.integer? rest).map some else none

/-- Reads the part of a literal behind its sign. A zero has no digit behind it, and a point has. -/
def unsignedLiteral? (negative : Bool) (cs : List Char) : Option NumberLiteral :=
  let (whole, rest) := Text.spanDigits cs
  if whole = [] ∨ (whole.head? = some '0' ∧ whole ≠ ['0']) then none
  else match rest with
    | '.' :: rest =>
      let (fraction, rest) := Text.spanDigits rest
      if fraction = [] then none
      else (literalExponent? rest).map fun e => ⟨negative, whole, some fraction, e⟩
    | rest => (literalExponent? rest).map fun e => ⟨negative, whole, none, e⟩

/-- Reads a literal that is the whole text. -/
def NumberLiteral.ofChars? : List Char → Option NumberLiteral
  | '-' :: cs => unsignedLiteral? true cs
  | cs => unsignedLiteral? false cs

/-- The greatest significand. -/
def maxSignificand : Nat := UInt64.size - 1

/-- Appends digits to a significand as long as it stays in range, and hands back the others. -/
def takeSignificand (significand : Nat) : List Char → Nat × List Char
  | [] => (significand, [])
  | c :: rest =>
    let next := 10 * significand + Text.digitValue c
    if next ≤ maxSignificand then takeSignificand next rest else (significand, c :: rest)

/-- A power of ten as the nearest floating-point number, in units; the power is at most 308. -/
def powerUnits (power : Nat) : Nat :=
  ((Binary64.ofRatio false (Nat.pow 10 power) 1).units?).getD 0

/-- A magnitude divided by a power of ten. Powers beyond 308 are divided by in steps, each of them
rounded. -/
def scaleDown (magnitude power : Nat) : Nat :=
  if power ≤ 308 then
    ((Binary64.divMagnitude magnitude (powerUnits power)).units?).getD 0
  else if magnitude = 0 then 0
  else scaleDown (((Binary64.divMagnitude magnitude (powerUnits 308)).units?).getD 0) (power - 308)
termination_by power

/-- A magnitude multiplied by a power of ten, unless that is too great. -/
def scaleUp? (magnitude power : Nat) : Option Nat :=
  if power ≤ 308 then (Binary64.mulMagnitude magnitude (powerUnits power)).units?
  else if magnitude = 0 then some 0
  else none

/-- The floating-point number of a significand and a power of ten. -/
def scaled? (negative : Bool) (significand : Nat) (exponent : Int) : Option Binary64 := do
  -- The significand is rounded first, so that large ones are rounded twice on their way.
  let magnitude ← (Binary64.ofRatio false significand 1).units?
  let units ←
    if 0 ≤ exponent then scaleUp? magnitude exponent.toNat
    else some (scaleDown magnitude (-exponent).toNat)
  return Binary64.ofRatio negative units Binary64.unitsPerOne

/-- The value of a literal with a fraction or an exponent, or with too many digits. -/
def NumberLiteral.float? (literal : NumberLiteral) : Option Binary64 :=
  let fraction := literal.fraction.getD []
  let (significand, more) := takeSignificand 0 literal.whole
  let (significand, dropped) := takeSignificand significand fraction
  let places : Int := (more.length : Int) - (fraction.length - dropped.length : Nat)
  scaled? literal.negative significand (literal.exponent.getD 0 + places)

/-- The value of a literal. Negative zero is a floating-point number, as no integer is. -/
def NumberLiteral.value? (literal : NumberLiteral) : Option Json :=
  if literal.fraction.isNone ∧ literal.exponent.isNone then
    let n := Text.numeralValue literal.whole
    if literal.negative then
      if 0 < n ∧ n ≤ Nat.pow 2 63 then some (.integer (-n)) else literal.float?.map .float
    else if n ≤ maxSignificand then some (.integer n)
    else literal.float?.map .float
  else literal.float?.map .float

end GraphMapper.Json
