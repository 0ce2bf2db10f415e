import GraphMapper.Text.Numeral

/-!
# Dates and times

Dates of the proleptic Gregorian calendar, times of day with leap seconds, and their combinations
without and with an offset from universal time. A value that is no date or no time cannot be built:
each structure carries the proof of its ranges, and `ofFields?` builds one from fields that are in
range.

The text of each (`Date.text`, `Time.text`, `LocalDateTime.text`, `DateTime.text`) is the one of
ISO 8601. A text tells a leap second by the number 60, and an offset to the minute, so that some
values have the text of another one.
-/

namespace GraphMapper

/-- Whether February has a 29th day. -/
def isLeapYear (year : Int) : Bool :=
  year % 4 = 0 && (year % 100 ≠ 0 || year % 400 = 0)

/-- The number of days of a month, counted from one. -/
def daysInMonth (year : Int) (month : Nat) : Nat :=
  if month = 2 then if isLeapYear year then 29 else 28
  else if month = 4 ∨ month = 6 ∨ month = 9 ∨ month = 11 then 30
  else 31

/-- The years that dates are kept for. -/
def yearRange (year : Int) : Prop :=
  -262143 ≤ year ∧ year ≤ 262142

instance (year : Int) : Decidable (yearRange year) := by
  unfold yearRange; infer_instance

/-- A day of the calendar. The year before year one is year zero. -/
structure Date where
  year : Int
  month : Nat
  day : Nat
  year_range : yearRange year
  month_range : 1 ≤ month ∧ month ≤ 12
  day_range : 1 ≤ day ∧ day ≤ daysInMonth year month
  deriving DecidableEq

/-- A time of day to the nanosecond. The leap second behind a second counts on in its nanoseconds,
from a thousand million, and any second may have one behind it. -/
structure Time where
  hour : Nat
  minute : Nat
  second : Nat
  nano : Nat
  hour_lt : hour < 24
  minute_lt : minute < 60
  second_lt : second < 60
  nano_lt : nano < 2000000000
  deriving DecidableEq

/-- A date and a time of day, at no particular place. -/
structure LocalDateTime where
  date : Date
  time : Time
  deriving DecidableEq

/-- A date and a time of day at a place that is `offset` seconds ahead of universal time. -/
structure DateTime where
  moment : LocalDateTime
  offset : Int
  offset_range : -86400 < offset ∧ offset < 86400
  deriving DecidableEq

/-- The date with the given fields, if there is one. -/
def Date.ofFields? (year : Int) (month day : Nat) : Option Date :=
  if h : yearRange year ∧ (1 ≤ month ∧ month ≤ 12) ∧ (1 ≤ day ∧ day ≤ daysInMonth year month) then
    some ⟨year, month, day, h.1, h.2.1, h.2.2⟩
  else none

/-- The time with the given fields, if there is one. -/
def Time.ofFields? (hour minute second nano : Nat) : Option Time :=
  if h : hour < 24 ∧ minute < 60 ∧ second < 60 ∧ nano < 2000000000 then
    some ⟨hour, minute, second, nano, h.1, h.2.1, h.2.2.1, h.2.2.2⟩
  else none

/-- The time that is written with the given fields, if there is one. Second 60 is written for the
leap second behind second 59. -/
def Time.ofWritten? (hour minute second fraction : Nat) : Option Time :=
  if second = 60 then Time.ofFields? hour minute 59 (1000000000 + fraction)
  else Time.ofFields? hour minute second fraction

/-- The moment at the given offset, if the offset is less than a day. -/
def DateTime.ofFields? (moment : LocalDateTime) (offset : Int) : Option DateTime :=
  if h : -86400 < offset ∧ offset < 86400 then some ⟨moment, offset, h⟩ else none

/-- A year has at least four digits, and a sign where it is negative or has more. -/
def yearText (year : Int) : String :=
  if 0 ≤ year ∧ year ≤ 9999 then Text.padded 4 year.toNat
  else (if year < 0 then "-" else "+") ++ Text.padded 4 year.natAbs

/-- A fraction of a second has the fewest of three, six or nine digits that are exact, and is left
out where it is zero. -/
def fractionText (nano : Nat) : String :=
  if nano = 0 then ""
  else if nano % 1000000 = 0 then "." ++ Text.padded 3 (nano / 1000000)
  else if nano % 1000 = 0 then "." ++ Text.padded 6 (nano / 1000)
  else "." ++ Text.padded 9 nano

/-- Year, month and day. -/
def Date.text (d : Date) : String :=
  yearText d.year ++ "-" ++ Text.padded 2 d.month ++ "-" ++ Text.padded 2 d.day

/-- Hour, minute, second and fraction. A leap second has the number behind that of its second. -/
def Time.text (t : Time) : String :=
  Text.padded 2 t.hour ++ ":" ++ Text.padded 2 t.minute ++ ":"
    ++ Text.padded 2 (t.second + t.nano / 1000000000) ++ fractionText (t.nano % 1000000000)

/-- The date and the time with a T between. -/
def LocalDateTime.text (m : LocalDateTime) : String :=
  m.date.text ++ "T" ++ m.time.text

/-- An offset as a sign, hours and minutes, to the nearest minute. -/
def offsetText (offset : Int) : String :=
  let minutes := (offset.natAbs + 30) / 60
  (if offset < 0 then "-" else "+") ++ Text.padded 2 (minutes / 60) ++ ":"
    ++ Text.padded 2 (minutes % 60)

/-- The local date and time and the offset. -/
def DateTime.text (m : DateTime) : String :=
  m.moment.text ++ offsetText m.offset

end GraphMapper
