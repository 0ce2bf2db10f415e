import GraphMapper.Text.Joined
import GraphMapper.Text.Printable

/-!
# Quoted text

Messages show a name or a value between quotation marks. Quotation mark, backslash and the common
control characters are escaped by a letter, what does not print by its number in hexadecimal, and
every other character stands as it is.
-/

namespace GraphMapper.Text

/-- A character as it stands between quotation marks. -/
def quotedChar (c : Char) : List Char :=
  if c = '"' then ['\\', '"']
  else if c = '\\' then ['\\', '\\']
  else if c = '\n' then ['\\', 'n']
  else if c = '\r' then ['\\', 'r']
  else if c = '\t' then ['\\', 't']
  else if c.toNat = 0 then ['\\', '0']
  else if isPrintable c then [c]
  else ['\\', 'u', '\x7b'] ++ Nat.toDigits 16 c.toNat ++ ['\x7d']

/-- The text between quotation marks. -/
def quoted (s : String) : String :=
  String.ofList ('"' :: (s.toList.flatMap quotedChar ++ ['"']))

/-- A list of texts, each quoted, between brackets. -/
def quotedList (items : List String) : String :=
  "[" ++ joined ", " (items.map quoted) ++ "]"

end GraphMapper.Text
