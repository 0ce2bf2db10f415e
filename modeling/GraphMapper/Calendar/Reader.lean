import GraphMapper.Calendar
import GraphMapper.Text.Blank

/-!
# Reading dates and times

Two grammars. `date?`, `time?` and `localDateTime?` are lenient about the fields: a number may be
preceded by white space and has one or two digits, a year up to four, or any number of them after a
sign; what stands between the fields must stand there exactly. `dateTime?` is the one of RFC 3339:
every field has its fixed count of digits, and an offset follows.

A reader takes a text from the front and hands back what it leaves.
-/

namespace GraphMapper.Calendar

open Text

/-- A reader takes a value off the front of a text. -/
abbrev Reader (α : Type) : Type := StateT (List Char) Option α

/-- Reads at least `least` and at most `most` digits. -/
def digits (least most : Nat) : Reader Nat := fun cs =>
  let run := (spanDigits (cs.take most)).1
  if run.length < least then none else some (numeralValue run, cs.drop run.length)

/-- Reads one character. -/
def literal (c : Char) : Reader Unit
  | d :: rest => if d = c then some ((), rest) else none
  | [] => none

/-- Reads one of several characters. -/
def oneOf (choices : List Char) : Reader Char
  | d :: rest => if d ∈ choices then some (d, rest) else none
  | [] => none

/-- Skips white space. -/
def blanks : Reader Unit := fun cs => some ((), trimStart cs)

/-- Reads a field of one or two digits. -/
def field : Reader Nat := do
  blanks
  digits 1 2

/-- Reads a year: after a sign all the digits there are, else at most four. -/
def year : Reader Int := do
  blanks
  match ← get with
  -- A sign lifts the limit of four digits.
  | '-' :: rest =>
    set rest
    return -((← digits 1 rest.length : Nat) : Int)
  | '+' :: rest =>
    set rest
    return ((← digits 1 rest.length : Nat) : Int)
  | _ => return ((← digits 1 4 : Nat) : Int)

/-- Reads the digits of a fraction as nanoseconds; those behind the ninth are dropped. -/
def nanoseconds : Reader Nat := fun cs =>
  let (run, rest) := spanDigits cs
  if run = [] then none
  else
    let kept := run.take 9
    some (numeralValue kept * Nat.pow 10 (9 - kept.length), rest)

/-- Reads a fraction of a second, if there is a point. -/
def fraction : Reader Nat := fun
  | '.' :: rest => nanoseconds rest
  | cs => some (0, cs)

/-- Reads the fields of a date. -/
def dateFields : Reader Date := do
  let y ← year
  literal '-'
  let m ← field
  literal '-'
  let d ← field
  (Date.ofFields? y m d : Option Date)

/-- Reads the fields of a time. -/
def timeFields : Reader Time := do
  let h ← field
  literal ':'
  let m ← field
  literal ':'
  let s ← field
  let n ← fraction
  (Time.ofWritten? h m s n : Option Time)

/-- Reads a date, a T and a time. -/
def localFields : Reader LocalDateTime := do
  let d ← dateFields
  literal 'T'
  let t ← timeFields
  return ⟨d, t⟩

/-- Reads a date with all its digits. -/
def strictDate : Reader Date := do
  let y ← digits 4 4
  literal '-'
  let m ← digits 2 2
  literal '-'
  let d ← digits 2 2
  (Date.ofFields? y m d : Option Date)

/-- Reads a time with all its digits. -/
def strictTime : Reader Time := do
  let h ← digits 2 2
  literal ':'
  let m ← digits 2 2
  literal ':'
  let s ← digits 2 2
  let n ← fraction
  (Time.ofWritten? h m s n : Option Time)

/-- Reads an offset in seconds: a Z for none, or a sign, hours and minutes below sixty. -/
def offset : Reader Int := do
  match ← oneOf ['Z', 'z', '+', '-', '\u2212'] with
  | 'Z' | 'z' => return 0
  | sign =>
    let h ← digits 2 2
    literal ':'
    let m ← digits 2 2
    if 60 ≤ m then failure
    let seconds : Int := (60 * (60 * h + m) : Nat)
    return if sign = '+' then seconds else -seconds

/-- Reads a date, a time and an offset. -/
def offsetFields : Reader DateTime := do
  let d ← strictDate
  let _ ← oneOf ['T', 't', ' ']
  let t ← strictTime
  let o ← offset
  (DateTime.ofFields? ⟨d, t⟩ o : Option DateTime)

/-- Reads a value that is the whole text. -/
def whole {α : Type} (reader : Reader α) (s : String) : Option α :=
  match reader.run s.toList with
  | some (value, []) => some value
  | _ => none

end Calendar

/-- Reads a date from the whole text. -/
def Date.ofText? (s : String) : Option Date := Calendar.whole Calendar.dateFields s

/-- Reads a time from the whole text. -/
def Time.ofText? (s : String) : Option Time := Calendar.whole Calendar.timeFields s

/-- Reads a local date and time from the whole text. -/
def LocalDateTime.ofText? (s : String) : Option LocalDateTime :=
  Calendar.whole Calendar.localFields s

/-- Reads a date and time with its offset from the whole text. -/
def DateTime.ofText? (s : String) : Option DateTime :=
  Calendar.whole Calendar.offsetFields s

end GraphMapper
