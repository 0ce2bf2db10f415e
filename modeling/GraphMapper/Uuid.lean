/-!
# Universally unique identifiers

An identifier is a number of 128 bits, written as 32 lower-case hexadecimal digits in groups of
eight, four, four, four and twelve. `ofText?` reads that text, also between braces, behind
`urn:uuid:`, or without its hyphens; letters may be in any case.
-/

namespace GraphMapper

/-- An identifier of 128 bits. -/
structure Uuid where
  value : BitVec 128
  deriving DecidableEq

namespace Uuid

/-- The identifier of version 4 with the given bits wherever the version leaves them open. -/
def version4 (bits : BitVec 128) : Uuid :=
  let version : BitVec 128 := 4 <<< 76 ||| 2 <<< 62
  let fixed : BitVec 128 := 15 <<< 76 ||| 3 <<< 62
  ⟨bits &&& ~~~fixed ||| version⟩

/-- The digits that come before each hyphen and after the last one. -/
def groups : List Nat := [8, 4, 4, 4, 12]

/-- A lower-case hexadecimal digit. -/
def hexDigit (n : Nat) : Char :=
  Nat.digitChar (n % 16)

/-- The 32 digits, the first one being of the highest value. -/
def digits (u : Uuid) : List Char :=
  (List.range 32).map fun i => hexDigit (u.value.toNat / Nat.pow 16 (31 - i))

/-- Digits in groups, a hyphen between each two. -/
def hyphenate : List Nat → List Char → List Char
  | [], _ => []
  | [size], cs => cs.take size
  | size :: rest, cs => cs.take size ++ '-' :: hyphenate rest (cs.drop size)

/-- The text with hyphens and lower-case digits. -/
def text (u : Uuid) : String :=
  String.ofList (hyphenate groups u.digits)

/-- The value of a hexadecimal digit in any case. -/
def hexValue? (c : Char) : Option Nat :=
  if '0' ≤ c ∧ c ≤ '9' then some (c.toNat - '0'.toNat)
  else if 'a' ≤ c ∧ c ≤ 'f' then some (c.toNat - 'a'.toNat + 10)
  else if 'A' ≤ c ∧ c ≤ 'F' then some (c.toNat - 'A'.toNat + 10)
  else none

/-- Reads hexadecimal digits alone. -/
def ofDigits? (cs : List Char) : Option Uuid :=
  if cs.length = 32 then
    (cs.mapM hexValue?).map fun values => ⟨BitVec.ofNat 128 (values.foldl (16 * · + ·) 0)⟩
  else none

/-- Takes the hyphens out of grouped digits; there must be one after each group but the last. -/
def joinGroups? : List Nat → List Char → Option (List Char)
  | [], cs => if cs = [] then some [] else none
  | [size], cs => if cs.length = size then some cs else none
  | size :: rest, cs =>
    match cs.drop size with
    | '-' :: tail => (joinGroups? rest tail).map (cs.take size ++ ·)
    | _ => none

/-- Reads digits with hyphens. -/
def ofHyphenated? (cs : List Char) : Option Uuid :=
  (joinGroups? groups cs).bind ofDigits?

/-- What may stand before grouped digits. -/
def urn : List Char := "urn:uuid:".toList

/-- Reads an identifier that is the whole text. -/
def ofText? (s : String) : Option Uuid :=
  let cs := s.toList
  if cs.length = 32 then ofDigits? cs
  else if cs.length = 36 then ofHyphenated? cs
  else if cs.length = 38 ∧ cs.head? = some '\x7b' ∧ cs.getLast? = some '\x7d' then
    ofHyphenated? (cs.drop 1).dropLast
  else if cs.length = 45 ∧ (cs.take 9).map Char.toLower = urn then ofHyphenated? (cs.drop 9)
  else none

end Uuid

end GraphMapper
