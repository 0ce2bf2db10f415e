import GraphMapper.Binary64.Shortest
import GraphMapper.Text.Numeral

/-!
# Numbers as text

`positional` is how a number reads in a message or as a string property: its shortest digits in
positional notation, whatever their count. `ofText?` reads such a text back, and every other
spelling of a decimal with an optional exponent. The spelling of a number in JSON, which turns to an
exponent for great and small numbers, is `jsonText`.
-/

namespace GraphMapper.Binary64

open Text

/-- The digits of a decimal in positional notation. -/
def Decimal.positional (d : Decimal) : String :=
  let digits := Nat.toDigits 10 d.significand
  if 0 ≤ d.exponent then
    String.ofList (digits ++ List.replicate d.exponent.toNat '0')
  else
    let places := (-d.exponent).toNat
    if places < digits.length then
      let whole := digits.length - places
      String.ofList (digits.take whole ++ '.' :: digits.drop whole)
    else
      String.ofList ('0' :: '.' :: List.replicate (places - digits.length) '0' ++ digits)

/-- The exponent of a decimal in scientific notation, with one digit before the point. -/
def Decimal.order (d : Decimal) : Int :=
  d.exponent + (Nat.toDigits 10 d.significand).length - 1

/-- The digits of a decimal with one digit before the point and a signed exponent behind. -/
def Decimal.scientific (d : Decimal) : String :=
  let fraction := match Nat.toDigits 10 d.significand with
    | [] => ""
    | [digit] => String.ofList [digit]
    | digit :: rest => String.ofList (digit :: '.' :: rest)
  let sign := if d.order < 0 then "-" else "+"
  fraction ++ "e" ++ sign ++ toString d.order.natAbs

/-- A number in positional notation, with no point behind a whole number. -/
def positional : Binary64 → String
  | .nan => "NaN"
  | .infinite negative => if negative then "-inf" else "inf"
  | .finite negative mantissa scale _ =>
    let magnitude :=
      if mantissa = 0 then "0" else (shortest .up mantissa scale).positional
    if negative then "-" ++ magnitude else magnitude

/-- A finite number in JSON: positional where the order of magnitude lies from -5 to 15, with a
zero behind the point of a whole number, and with an exponent elsewhere. -/
def jsonMagnitude (mantissa scale : Nat) : String :=
  if mantissa = 0 then "0.0"
  else
    let d := shortest .toEven mantissa scale
    if -5 ≤ d.order ∧ d.order ≤ 15 then
      if 0 ≤ d.exponent then d.positional ++ ".0" else d.positional
    else d.scientific

/-- A number in JSON, which has no spelling for what is not finite. -/
def jsonText : Binary64 → String
  | .finite negative mantissa scale _ =>
    let magnitude := jsonMagnitude mantissa scale
    if negative then "-" ++ magnitude else magnitude
  | _ => "null"

/-- The number nearest to `significand * 10 ^ exponent`, where the significand was written with
`width` digits. What is certain to be too great or too small is not computed. -/
def ofDecimal (negative : Bool) (significand width : Nat) (exponent : Int) : Binary64 :=
  if significand = 0 then zero negative
  -- The greatest number is below 10 ^ 309, and half the least one above 10 ^ (-325).
  else if 400 < exponent then .infinite negative
  else if exponent < -(400 + (width : Int)) then zero negative
  else if 0 ≤ exponent then ofRatio negative (significand * Nat.pow 10 exponent.toNat) 1
  else ofRatio negative significand (Nat.pow 10 (-exponent).toNat)

/-- Reads what may follow the digits of a decimal: nothing, or an exponent. -/
def exponent? : List Char → Option Int
  | [] => some 0
  | c :: rest => if c = 'e' ∨ c = 'E' then integer? rest else none

/-- Reads the digits of a decimal, with a point among them or not, and its exponent. There must be a
digit on one side of the point. -/
def decimal? (negative : Bool) (cs : List Char) : Option Binary64 :=
  let (whole, rest) := spanDigits cs
  let (fraction, rest) := match rest with
    | '.' :: rest => spanDigits rest
    | rest => ([], rest)
  let digits := whole ++ fraction
  if digits = [] then none
  else (exponent? rest).map fun exponent =>
    ofDecimal negative (numeralValue digits) digits.length (exponent - fraction.length)

/-- Reads a number without its sign. The words for what is no decimal may be in any case. -/
def magnitude? (negative : Bool) (cs : List Char) : Option Binary64 :=
  let word := String.ofList (cs.map Char.toLower)
  if word = "inf" ∨ word = "infinity" then some (.infinite negative)
  else if word = "nan" then some .nan
  else decimal? negative cs

/-- Reads a number that is the whole text, after at most one sign. -/
def ofText? (s : String) : Option Binary64 :=
  match s.toList with
  | '-' :: cs => magnitude? true cs
  | '+' :: cs => magnitude? false cs
  | cs => magnitude? false cs

end GraphMapper.Binary64
