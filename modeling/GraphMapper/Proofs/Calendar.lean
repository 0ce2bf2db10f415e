import Mathlib.Data.List.Basic
import GraphMapper.Calendar.Reader

/-!
# Dates and times are read back from their text

Writers and readers follow different descriptions. A writer pads every field to its width, gives a
year a sign where it has not four digits, and writes a fraction in three, six or nine digits; the
lenient readers take one or two digits for a field and any number of them for a year with a sign,
and the one for moments with an offset takes exact counts of digits and four for the year.

A field is read off the front of a text that goes on with a character that cannot belong to it: a
digit would belong to a field that is not yet at its greatest width, and a point to a time without
fraction. The fields of a value that was built are in range, so that the value is built again from
them (`Date.ofFields?_fields`).

Every text of a date or a time is read, but not always as what it was written of. Of a leap second
only the number is written, which is 60 at the end of a minute and elsewhere that of another second
(`Time.asWritten`); of an offset only the minutes are (`wholeMinutes`). The results are
`Date.ofText?_text`, which holds of every date, and `Time.ofText?_text_iff`,
`LocalDateTime.ofText?_text_iff` and `DateTime.ofText?_text_iff`, which say what is read back.
-/

namespace GraphMapper

/-! ## Numerals -/

namespace Text

variable {digits rest : List Char} {width n : Nat}

/-- The text does not go on with a digit. -/
def NoDigit (rest : List Char) : Prop :=
  ∀ c ∈ rest.head?, c.isDigit = false

/-- The beginning of a text that does not go on with a digit does not either. -/
theorem NoDigit.take (h : NoDigit rest) (count : Nat) : NoDigit (rest.take count) := by
  cases count with
  | zero => exact fun c hc => nomatch hc
  | succ count =>
    cases rest with
    | nil => exact h
    | cons c more => exact h

/-- Digits are split off up to the first character that is none. -/
theorem spanDigits_append_of_isDigit (hdigits : ∀ c ∈ digits, c.isDigit) (hrest : NoDigit rest) :
    spanDigits (digits ++ rest) = (digits, rest) := by
  have hspan : rest.takeWhile Char.isDigit = [] ∧ rest.dropWhile Char.isDigit = rest := by
    cases rest with
    | nil => simp
    | cons c more => simp [hrest c rfl]
  rw [spanDigits, List.takeWhile_append_of_pos hdigits, List.dropWhile_append_of_pos hdigits,
    hspan.1, hspan.2, List.append_nil]

/-- No digit is white space. -/
theorem isBlank_of_isDigit {c : Char} (h : c.isDigit) : isBlank c = false := by
  have hrange : 48 ≤ c.toNat ∧ c.toNat ≤ 57 := by
    simpa [Char.isDigit, UInt32.le_iff_toNat_le] using h
  simp only [isBlank, Bool.or_eq_false_iff, Bool.and_eq_false_iff, decide_eq_false_iff_not]
  omega

/-- A padded number is written in digits. -/
theorem isDigit_of_mem_padded {c : Char} (h : c ∈ (padded width n).toList) : c.isDigit := by
  rw [padded, String.toList_ofList, List.mem_append] at h
  rcases h with hzero | hdigit
  · rw [List.eq_of_mem_replicate hzero]
    rfl
  · exact Nat.isDigit_of_mem_toDigits (by decide) (by decide) hdigit

/-- A padded number has at least as many digits as it is padded to. -/
theorem le_length_padded (width n : Nat) : width ≤ (padded width n).toList.length := by
  rw [padded, String.toList_ofList, List.length_append, List.length_replicate]
  omega

/-- A padded number begins with a digit. -/
theorem padded_eq_cons (hwidth : 0 < width) (n : Nat) :
    ∃ c more, (padded width n).toList = c :: more ∧ c.isDigit := by
  have hne : (padded width n).toList ≠ [] := by
    intro hnil
    have hle := le_length_padded width n
    rw [hnil, List.length_nil] at hle
    omega
  obtain ⟨c, more, hdigits⟩ := List.exists_cons_of_ne_nil hne
  exact ⟨c, more, hdigits, isDigit_of_mem_padded (hdigits ▸ List.mem_cons_self)⟩

/-- A number that fits has exactly as many digits as it is padded to. -/
theorem length_padded (hwidth : 0 < width) (hn : n < Nat.pow 10 width) :
    (padded width n).toList.length = width := by
  have hle : (Nat.toDigits 10 n).length ≤ width :=
    (Nat.length_toDigits_le_iff (by decide) hwidth).mpr hn
  rw [padded, String.toList_ofList, List.length_append, List.length_replicate]
  omega

/-- A padded number is read as the number. -/
theorem numeralValue_padded (width n : Nat) : numeralValue (padded width n).toList = n := by
  have hvalue : Nat.ofDigitChars 10 (Nat.toDigits 10 n) 0 = n := Nat.ofDigitChars_ten_toDigits
  have hzeros (count : Nat) : Nat.ofDigitChars 10 (List.replicate count '0') 0 = 0 := by
    rw [Nat.ofDigitChars_replicate_zero, Nat.mul_zero]
  have hread (digits : List Char) : numeralValue digits = Nat.ofDigitChars 10 digits 0 := rfl
  rw [padded, String.toList_ofList, hread, Nat.ofDigitChars_append, hzeros, hvalue]

end Text

/-! ## Fields -/

/-- The fields of a date are in range. -/
theorem Date.ofFields?_fields (d : Date) : Date.ofFields? d.year d.month d.day = some d :=
  dif_pos ⟨d.year_range, d.month_range, d.day_range⟩

/-- The fields of a time are in range. -/
theorem Time.ofFields?_fields (t : Time) :
    Time.ofFields? t.hour t.minute t.second t.nano = some t :=
  dif_pos ⟨t.hour_lt, t.minute_lt, t.second_lt, t.nano_lt⟩

/-- The time is in no leap second, or in one at the end of its minute. -/
def Time.Regular (t : Time) : Prop :=
  t.nano < 1000000000 ∨ t.second = 59

instance (t : Time) : Decidable t.Regular :=
  inferInstanceAs (Decidable (_ ∨ _))

/-- The time that has the text of a given one. A leap second that is not at the end of its minute
has the text of the second behind it. -/
def Time.asWritten (t : Time) : Time :=
  if h : t.Regular then t
  else
    have hleap : 1000000000 ≤ t.nano ∧ t.second ≠ 59 := by
      simpa only [Regular, not_or, Nat.not_lt] using h
    { t with
      second := t.second + 1
      nano := t.nano - 1000000000
      second_lt := by have := t.second_lt; omega
      nano_lt := by have := t.nano_lt; omega }

/-- The times that have a text of their own. -/
theorem Time.asWritten_eq_self_iff {t : Time} : t.asWritten = t ↔ t.Regular := by
  refine ⟨fun h => ?_, fun h => dif_pos h⟩
  by_contra hleap
  rw [asWritten, dif_neg hleap] at h
  have hsecond : t.second + 1 = t.second := congrArg Time.second h
  omega

/-- The time that is read from a text has that text. -/
theorem Time.text_asWritten (t : Time) : t.asWritten.text = t.text := by
  unfold asWritten
  split
  · rfl
  · next h =>
    have hleap : ¬ t.nano < 1000000000 := fun hnano => h (.inl hnano)
    have hnano := t.nano_lt
    have hsecond : t.second + 1 + (t.nano - 1000000000) / 1000000000 =
        t.second + t.nano / 1000000000 := by omega
    have hfraction : (t.nano - 1000000000) % 1000000000 = t.nano % 1000000000 := by omega
    simp only [Time.text, hsecond, hfraction]

/-- From the fields that are written of a time the time is built that has its text. -/
theorem Time.ofWritten?_written (t : Time) :
    Time.ofWritten? t.hour t.minute (t.second + t.nano / 1000000000) (t.nano % 1000000000) =
      some t.asWritten := by
  have hsecond := t.second_lt
  have hnano := t.nano_lt
  have hcases : t.nano < 1000000000 ∨ (1000000000 ≤ t.nano ∧ t.second = 59) ∨
      (1000000000 ≤ t.nano ∧ t.second ≠ 59) := by omega
  unfold Time.ofWritten? Time.asWritten
  rcases hcases with hearly | ⟨hleap, hlast⟩ | ⟨hleap, hlast⟩
  · have hnumber : t.second + t.nano / 1000000000 = t.second := by omega
    rw [hnumber, Nat.mod_eq_of_lt hearly, if_neg (by omega), dif_pos (.inl hearly)]
    exact t.ofFields?_fields
  · -- The leap second that has a number of its own.
    have hnumber : t.second + t.nano / 1000000000 = 60 := by omega
    have hfraction : 1000000000 + t.nano % 1000000000 = t.nano := by omega
    rw [hnumber, hfraction, if_pos rfl, dif_pos (.inr hlast), ← hlast]
    exact t.ofFields?_fields
  · -- A leap second that is written as the second behind it.
    have hnumber : t.second + t.nano / 1000000000 = t.second + 1 := by omega
    have hfraction : t.nano % 1000000000 = t.nano - 1000000000 := by omega
    have hstray : ¬ t.Regular := not_or.mpr ⟨Nat.not_lt.mpr hleap, hlast⟩
    rw [hnumber, hfraction, if_neg (by omega), dif_neg hstray]
    exact dif_pos ⟨t.hour_lt, t.minute_lt, by omega, by omega⟩

/-- Months and days have two digits. -/
theorem Date.fields_lt (d : Date) : d.month < 100 ∧ d.day < 100 := by
  have hdays : daysInMonth d.year d.month ≤ 31 := by
    unfold daysInMonth
    split_ifs <;> decide
  have hmonth := d.month_range
  have hday := d.day_range
  omega

/-- Hours, minutes and the seconds that are written have two digits. -/
theorem Time.fields_lt (t : Time) :
    t.hour < 100 ∧ t.minute < 100 ∧ t.second + t.nano / 1000000000 < 100 := by
  have hhour := t.hour_lt
  have hminute := t.minute_lt
  have hsecond := t.second_lt
  have hnano := t.nano_lt
  omega

/-- The fields of a date with what stands between them and behind. -/
theorem Date.toList_text_append (d : Date) (rest : List Char) :
    d.text.toList ++ rest = (yearText d.year).toList ++ '-' ::
      ((Text.padded 2 d.month).toList ++ '-' :: ((Text.padded 2 d.day).toList ++ rest)) := by
  simp [Date.text]

/-- The fields of a time with what stands between them and behind. -/
theorem Time.toList_text_append (t : Time) (rest : List Char) :
    t.text.toList ++ rest = (Text.padded 2 t.hour).toList ++ ':' ::
      ((Text.padded 2 t.minute).toList ++ ':' ::
        ((Text.padded 2 (t.second + t.nano / 1000000000)).toList ++
          ((fractionText (t.nano % 1000000000)).toList ++ rest))) := by
  simp [Time.text]

namespace Calendar

open Text

variable {α β : Type} {text rest : List Char} {width n : Nat}

/-! ## What one step reads -/

/-- A reader goes on behind what the one before it has read. -/
theorem read_bind {read : Reader α} {a : α} (h : read text = some (a, rest))
    (next : α → Reader β) : (read >>= next) text = next a rest := by
  simp [bind, StateT.bind, h]

/-- What does not begin with what is read first is not read. -/
theorem read_bind_none {read : Reader α} (h : read text = none) (next : α → Reader β) :
    (read >>= next) text = none := by
  simp [bind, StateT.bind, h]

/-- What is built of fields is built where they are in range, and nothing is read for it. -/
theorem read_lift {built : Option α} {a : α} (h : built = some a) (text : List Char) :
    (liftM built : Reader α) text = some (a, text) := by
  rw [h]
  rfl

@[simp]
theorem literal_cons (c : Char) (rest : List Char) : literal c (c :: rest) = some ((), rest) := by
  simp [literal]

/-- Digits are read up to the greatest count, or up to a character that is none. -/
theorem digits_append {ds : List Char} {least most : Nat} (hds : ∀ c ∈ ds, c.isDigit)
    (hleast : least ≤ ds.length) (hmost : ds.length ≤ most)
    (hrest : ds.length < most → NoDigit rest) :
    digits least most (ds ++ rest) = some (numeralValue ds, rest) := by
  -- The reader looks at as many characters as it may read digits; they end there at the latest.
  have hends : NoDigit (rest.take (most - ds.length)) := by
    rcases Nat.lt_or_ge ds.length most with hlt | hge
    · exact (hrest hlt).take _
    · rw [Nat.sub_eq_zero_of_le hge]
      exact fun c hc => nomatch hc
  have htake : (ds ++ rest).take most = ds ++ rest.take (most - ds.length) := by
    rw [List.take_append, List.take_of_length_le hmost]
  rw [digits, htake, spanDigits_append_of_isDigit hds hends]
  dsimp only
  rw [if_neg (Nat.not_lt.mpr hleast), List.drop_left]

/-- A number that is padded to the greatest count of digits is read, whatever follows. -/
theorem digits_padded {least : Nat} (hwidth : 0 < width) (hn : n < Nat.pow 10 width)
    (hleast : least ≤ width) (rest : List Char) :
    digits least width ((padded width n).toList ++ rest) = some (n, rest) := by
  have hlength := length_padded hwidth hn
  rw [digits_append (fun c hc => isDigit_of_mem_padded hc) (by omega) (by omega)
    (fun hlt => by omega), numeralValue_padded]

/-- No white space is skipped before a digit. -/
theorem blanks_padded (hwidth : 0 < width) (n : Nat) (rest : List Char) :
    blanks ((padded width n).toList ++ rest) = some ((), (padded width n).toList ++ rest) := by
  obtain ⟨c, more, hdigits, hc⟩ := padded_eq_cons hwidth n
  rw [hdigits, blanks, List.cons_append, trimStart_cons (isBlank_of_isDigit hc)]

/-- A field of two digits is read. -/
theorem field_padded (hn : n < 100) (rest : List Char) :
    field ((padded 2 n).toList ++ rest) = some (n, rest) := by
  rw [field, read_bind (blanks_padded (by decide) n rest)]
  exact digits_padded (by decide) hn (by decide) rest

/-! ## Years and fractions -/

/-- A year of all the digits there are is read up to a character that is none. -/
theorem digits_long (hwidth : 0 < width) (n : Nat) (hrest : NoDigit rest) :
    digits 1 ((padded width n).toList ++ rest).length ((padded width n).toList ++ rest) =
      some (n, rest) := by
  have hle := le_length_padded width n
  have hlength : ((padded width n).toList ++ rest).length =
      (padded width n).toList.length + rest.length := List.length_append
  rw [digits_append (fun c hc => isDigit_of_mem_padded hc) (by omega) (by omega)
    (fun _ => hrest), numeralValue_padded]

/-- Behind a sign a year has all the digits there are. -/
theorem year_signed {n : Nat} (h : digits 1 text.length text = some (n, rest)) :
    year ('-' :: text) = some (-(n : Int), rest) ∧ year ('+' :: text) = some ((n : Int), rest) := by
  have hblanks {c : Char} (hc : isBlank c = false) : blanks (c :: text) = some ((), c :: text) := by
    rw [blanks, trimStart_cons hc]
  have hget (cs : List Char) : (get : Reader (List Char)) cs = some (cs, cs) := rfl
  have hset (cs : List Char) : (set text : Reader Unit) cs = some ((), text) := rfl
  -- The sign is given, so that the reader's match on it computes.
  constructor
  · rw [year, read_bind (hblanks (by decide)), read_bind (hget _)]
    change ((do set text; return -((← digits 1 text.length : Nat) : Int)) : Reader Int) _ = _
    rw [read_bind (hset _), read_bind h]
    rfl
  · rw [year, read_bind (hblanks (by decide)), read_bind (hget _)]
    change ((do set text; return ((← digits 1 text.length : Nat) : Int)) : Reader Int) _ = _
    rw [read_bind (hset _), read_bind h]
    rfl

/-- Without a sign a year has at most four digits. -/
theorem year_unsigned {c : Char} {n : Nat} (hc : c.isDigit)
    (h : digits 1 4 (c :: text) = some (n, rest)) : year (c :: text) = some ((n : Int), rest) := by
  have hblanks : blanks (c :: text) = some ((), c :: text) := by
    rw [blanks, trimStart_cons (isBlank_of_isDigit hc)]
  have hget : (get : Reader (List Char)) (c :: text) = some (c :: text, c :: text) := rfl
  have hsigns : c ≠ '-' ∧ c ≠ '+' := by
    constructor
    all_goals
      rintro rfl
      exact absurd hc (by decide)
  rw [year, read_bind hblanks, read_bind hget]
  -- Neither match on a sign applies.
  simp only [List.cons.injEq, hsigns, false_and, imp_self, implies_true]
  rw [read_bind h]
  rfl

/-- A year is read up to a character that is no digit. -/
theorem year_yearText (y : Int) (hrest : NoDigit rest) :
    year ((yearText y).toList ++ rest) = some (y, rest) := by
  unfold yearText
  split
  · next hshort =>
    have hfits : y.toNat < Nat.pow 10 4 := by
      change y.toNat < 10000
      omega
    have hread := digits_padded (by decide) hfits (by decide : 1 ≤ 4) rest
    have hvalue : (y.toNat : Int) = y := Int.toNat_of_nonneg hshort.1
    obtain ⟨c, more, hdigits, hc⟩ := padded_eq_cons (by decide : 0 < 4) y.toNat
    rw [hdigits, List.cons_append] at hread
    rw [hdigits, List.cons_append, year_unsigned hc hread, hvalue]
  · next hlong =>
    -- The sign lifts the limit of four digits, which these years exceed or have a minus before.
    have hread := year_signed (digits_long (by decide : 0 < 4) y.natAbs hrest)
    split
    · next hneg =>
      have hvalue : -(y.natAbs : Int) = y := by omega
      have htext : ("-" ++ padded 4 y.natAbs).toList ++ rest =
          '-' :: ((padded 4 y.natAbs).toList ++ rest) := by simp
      rw [hvalue] at hread
      rw [htext]
      exact hread.1
    · next hpos =>
      have hvalue : (y.natAbs : Int) = y := by omega
      have htext : ("+" ++ padded 4 y.natAbs).toList ++ rest =
          '+' :: ((padded 4 y.natAbs).toList ++ rest) := by simp
      rw [hvalue] at hread
      rw [htext]
      exact hread.2

/-- The digits of a fraction are read up to a character that is none. -/
theorem nanoseconds_padded (hwidth : 0 < width) (hnine : width ≤ 9) (hn : n < Nat.pow 10 width)
    (hrest : NoDigit rest) :
    nanoseconds ((padded width n).toList ++ rest) = some (n * Nat.pow 10 (9 - width), rest) := by
  have hlength := length_padded hwidth hn
  have hne : (padded width n).toList ≠ [] := by
    obtain ⟨c, more, hdigits, -⟩ := padded_eq_cons hwidth n
    rw [hdigits]
    exact List.cons_ne_nil c more
  have htake : (padded width n).toList.take 9 = (padded width n).toList :=
    List.take_of_length_le (by omega)
  rw [nanoseconds, spanDigits_append_of_isDigit (fun c hc => isDigit_of_mem_padded hc) hrest]
  dsimp only
  rw [if_neg hne, htake, numeralValue_padded, hlength]

/-- The text goes on with what does not belong to a time. -/
def EndsTime (rest : List Char) : Prop :=
  ∀ c ∈ rest.head?, c.isDigit = false ∧ c ≠ '.'

/-- A fraction is read up to a character that does not belong to it. -/
theorem fraction_fractionText (hn : n < 1000000000) (hrest : EndsTime rest) :
    fraction ((fractionText n).toList ++ rest) = some (n, rest) := by
  have hdigit : NoDigit rest := fun c hc => (hrest c hc).1
  have hpoint (w m : Nat) : fraction (("." ++ padded w m).toList ++ rest) =
      nanoseconds ((padded w m).toList ++ rest) := by
    have htext : ("." ++ padded w m).toList ++ rest = '.' :: ((padded w m).toList ++ rest) := by
      simp
    rw [htext]
    rfl
  -- The cases are those of the writer: no fraction, or one of three, six or nine digits.
  unfold fractionText
  split
  · next hzero =>
    subst hzero
    cases rest with
    | nil => rfl
    | cons c more =>
      have hc : c ≠ '.' := (hrest c rfl).2
      simp [fraction, hc]
  · split
    · next hmilli =>
      have hvalue : n / 1000000 * Nat.pow 10 (9 - 3) = n := by
        change n / 1000000 * 1000000 = n
        omega
      have hfits : n / 1000000 < Nat.pow 10 3 := by
        change n / 1000000 < 1000
        omega
      rw [hpoint, nanoseconds_padded (by decide) (by decide) hfits hdigit, hvalue]
    · split
      · next hmicro =>
        have hvalue : n / 1000 * Nat.pow 10 (9 - 6) = n := by
          change n / 1000 * 1000 = n
          omega
        have hfits : n / 1000 < Nat.pow 10 6 := by
          change n / 1000 < 1000000
          omega
        rw [hpoint, nanoseconds_padded (by decide) (by decide) hfits hdigit, hvalue]
      · have hfits : n < Nat.pow 10 9 := hn
        have hvalue : n * Nat.pow 10 (9 - 9) = n := Nat.mul_one n
        rw [hpoint, nanoseconds_padded (by decide) (by decide) hfits hdigit, hvalue]

/-! ## Dates and times of day -/

/-- A date is read off the front of any text. -/
theorem dateFields_text (d : Date) (rest : List Char) :
    dateFields (d.text.toList ++ rest) = some (d, rest) := by
  obtain ⟨hmonth, hday⟩ := d.fields_lt
  rw [d.toList_text_append, dateFields, read_bind (year_yearText d.year (by simp [NoDigit])),
    read_bind (literal_cons '-' _), read_bind (field_padded hmonth _),
    read_bind (literal_cons '-' _), read_bind (field_padded hday _)]
  exact read_lift d.ofFields?_fields rest

/-- A time is read as the one that has its text, up to a character that does not belong to it. -/
theorem timeFields_text (t : Time) (hrest : EndsTime rest) :
    timeFields (t.text.toList ++ rest) = some (t.asWritten, rest) := by
  obtain ⟨hhour, hminute, hsecond⟩ := t.fields_lt
  rw [t.toList_text_append, timeFields, read_bind (field_padded hhour _),
    read_bind (literal_cons ':' _), read_bind (field_padded hminute _),
    read_bind (literal_cons ':' _), read_bind (field_padded hsecond _),
    read_bind (fraction_fractionText (Nat.mod_lt _ (by decide)) hrest)]
  exact read_lift t.ofWritten?_written rest

/-- A date and a time are read. -/
theorem localFields_text (m : LocalDateTime) :
    localFields m.text.toList = some (⟨m.date, m.time.asWritten⟩, []) := by
  have htext : m.text.toList = m.date.text.toList ++ 'T' :: (m.time.text.toList ++ []) := by
    simp [LocalDateTime.text]
  rw [htext, localFields, read_bind (dateFields_text m.date _), read_bind (literal_cons 'T' _),
    read_bind (timeFields_text m.time (by simp [EndsTime]))]
  rfl

/-- A date whose year has four digits is read where all of its digits are asked for. -/
theorem strictDate_text {d : Date} (hyear : 0 ≤ d.year ∧ d.year ≤ 9999) (rest : List Char) :
    strictDate (d.text.toList ++ rest) = some (d, rest) := by
  have htext : yearText d.year = padded 4 d.year.toNat := if_pos hyear
  have hfits : d.year.toNat < Nat.pow 10 4 := by
    change d.year.toNat < 10000
    omega
  have hvalue : (d.year.toNat : Int) = d.year := Int.toNat_of_nonneg hyear.1
  obtain ⟨hmonth, hday⟩ := d.fields_lt
  rw [d.toList_text_append, htext, strictDate,
    read_bind (digits_padded (by decide) hfits (by decide) _),
    read_bind (literal_cons '-' _), read_bind (digits_padded (by decide) hmonth (by decide) _),
    read_bind (literal_cons '-' _), read_bind (digits_padded (by decide) hday (by decide) _),
    hvalue]
  exact read_lift d.ofFields?_fields rest

/-- A time is read where all of its digits are asked for, up to a character that does not belong to
it. -/
theorem strictTime_text (t : Time) (hrest : EndsTime rest) :
    strictTime (t.text.toList ++ rest) = some (t.asWritten, rest) := by
  obtain ⟨hhour, hminute, hsecond⟩ := t.fields_lt
  rw [t.toList_text_append, strictTime, read_bind (digits_padded (by decide) hhour (by decide) _),
    read_bind (literal_cons ':' _), read_bind (digits_padded (by decide) hminute (by decide) _),
    read_bind (literal_cons ':' _), read_bind (digits_padded (by decide) hsecond (by decide) _),
    read_bind (fraction_fractionText (Nat.mod_lt _ (by decide)) hrest)]
  exact read_lift t.ofWritten?_written rest

/-- Hours and minutes behind a sign are read as seconds with the sign. -/
theorem offset_signed {sign : Char} (hsign : sign = '+' ∨ sign = '-') {hours minutes : Nat}
    (hhours : hours < 100) (hminutes : minutes < 60) (rest : List Char) :
    offset (sign :: ((padded 2 hours).toList ++ ':' :: ((padded 2 minutes).toList ++ rest))) =
      some (if sign = '+' then ((60 * (60 * hours + minutes) : Nat) : Int)
        else -((60 * (60 * hours + minutes) : Nat) : Int), rest) := by
  have hfits : minutes < Nat.pow 10 2 := Nat.lt_trans hminutes (by decide)
  have hchosen : oneOf ['Z', 'z', '+', '-', '\u2212']
      (sign :: ((padded 2 hours).toList ++ ':' :: ((padded 2 minutes).toList ++ rest))) =
      some (sign, (padded 2 hours).toList ++ ':' :: ((padded 2 minutes).toList ++ rest)) := by
    rcases hsign with rfl | rfl <;> rfl
  have hzulu : sign ≠ 'Z' ∧ sign ≠ 'z' := by
    rcases hsign with rfl | rfl <;> decide
  rw [offset, read_bind hchosen]
  simp only [hzulu, imp_self]
  rw [read_bind (digits_padded (by decide) hhours (by decide) _), read_bind (literal_cons ':' _),
    read_bind (digits_padded (by decide) hfits (by decide) _), if_neg (Nat.not_le.mpr hminutes)]
  rfl

/-- The offset that has the text of a given one, in whole minutes. -/
def wholeMinutes (o : Int) : Int :=
  if o < 0 then -((60 * ((o.natAbs + 30) / 60) : Nat) : Int)
  else ((60 * ((o.natAbs + 30) / 60) : Nat) : Int)

/-- The offsets that have a text of their own. -/
theorem wholeMinutes_eq_self_iff {o : Int} : wholeMinutes o = o ↔ o % 60 = 0 := by
  unfold wholeMinutes
  split <;> omega

/-- An offset of less than a day is read as the one that has its text. -/
theorem offset_offsetText {o : Int} (ho : -86400 < o ∧ o < 86400) (rest : List Char) :
    offset ((offsetText o).toList ++ rest) = some (wholeMinutes o, rest) := by
  obtain ⟨minutes, hminutes⟩ : ∃ minutes, (o.natAbs + 30) / 60 = minutes := ⟨_, rfl⟩
  have hread {sign : Char} (hsign : sign = '+' ∨ sign = '-') :=
    offset_signed hsign (by omega : minutes / 60 < 100) (Nat.mod_lt minutes (by decide)) rest
  rw [Nat.div_add_mod] at hread
  -- Hours and minutes are those of the absolute value, and the sign stands in front.
  have htext : (offsetText o).toList ++ rest = (if o < 0 then '-' else '+') ::
      ((padded 2 (minutes / 60)).toList ++ ':' :: ((padded 2 (minutes % 60)).toList ++ rest)) := by
    by_cases hneg : o < 0 <;> simp [offsetText, hneg, hminutes]
  rw [htext, wholeMinutes, hminutes]
  split
  · rw [hread (.inr rfl), if_neg (by decide)]
  · rw [hread (.inl rfl), if_pos rfl]

/-- A moment whose year has four digits is read with its offset, if that is less than a day as it is
written. -/
theorem offsetFields_text {m : DateTime}
    (hyear : 0 ≤ m.moment.date.year ∧ m.moment.date.year ≤ 9999) :
    offsetFields m.text.toList = (DateTime.ofFields? ⟨m.moment.date, m.moment.time.asWritten⟩
      (wholeMinutes m.offset)).map fun read => (read, []) := by
  have htext : m.text.toList = m.moment.date.text.toList ++ 'T' ::
      (m.moment.time.text.toList ++ ((offsetText m.offset).toList ++ [])) := by
    simp [DateTime.text, LocalDateTime.text]
  have hchosen (cs : List Char) : oneOf ['T', 't', ' '] ('T' :: cs) = some ('T', cs) := rfl
  have hends : EndsTime ((offsetText m.offset).toList ++ []) := by
    by_cases hneg : m.offset < 0 <;> simp [EndsTime, offsetText, hneg]
  rw [htext, offsetFields, read_bind (strictDate_text hyear _), read_bind (hchosen _),
    read_bind (strictTime_text m.moment.time hends),
    read_bind (offset_offsetText m.offset_range [])]
  cases DateTime.ofFields? ⟨m.moment.date, m.moment.time.asWritten⟩ (wholeMinutes m.offset) <;> rfl

/-- A moment of any other year is not read with an offset: its text begins with a sign. -/
theorem offsetFields_signed {m : DateTime}
    (hyear : ¬ (0 ≤ m.moment.date.year ∧ m.moment.date.year ≤ 9999)) :
    offsetFields m.text.toList = none := by
  obtain ⟨c, more, hc, hsign⟩ : ∃ c more, c.isDigit = false ∧
      (yearText m.moment.date.year).toList = c :: more := by
    unfold yearText
    rw [if_neg hyear, String.toList_append]
    split
    · exact ⟨'-', _, rfl, rfl⟩
    · exact ⟨'+', _, rfl, rfl⟩
  have htext : m.text.toList = m.moment.date.text.toList ++
      ('T' :: (m.moment.time.text.toList ++ (offsetText m.offset).toList)) := by
    simp [DateTime.text, LocalDateTime.text]
  have hdate (cs : List Char) : strictDate (c :: cs) = none :=
    read_bind_none (by simp [digits, spanDigits, hc]) _
  rw [htext, m.moment.date.toList_text_append, hsign, List.cons_append, offsetFields,
    read_bind_none (hdate _)]

/-- The value that is the whole text is read. -/
theorem whole_of_read {read : Reader α} {s : String} {a : α} (h : read s.toList = some (a, [])) :
    whole read s = some a := by
  have hrun : read.run s.toList = some (a, []) := h
  rw [whole, hrun]

end Calendar

open Calendar

/-- A date is read back from its text. -/
theorem Date.ofText?_text (d : Date) : Date.ofText? d.text = some d := by
  have hread := dateFields_text d []
  rw [List.append_nil] at hread
  exact whole_of_read hread

/-- A time of day is read from its text as the one that has that text. -/
theorem Time.ofText?_text (t : Time) : Time.ofText? t.text = some t.asWritten := by
  have hread := @timeFields_text [] t (by simp [EndsTime])
  rw [List.append_nil] at hread
  exact whole_of_read hread

/-- A time of day is read back from its text exactly if it is no leap second, or one at the end of
its minute. -/
theorem Time.ofText?_text_iff {t : Time} : Time.ofText? t.text = some t ↔ t.Regular := by
  rw [t.ofText?_text, Option.some.injEq, asWritten_eq_self_iff]

/-- A local date and time is read back from its text exactly if the time is. -/
theorem LocalDateTime.ofText?_text_iff {m : LocalDateTime} :
    LocalDateTime.ofText? m.text = some m ↔ m.time.Regular := by
  have hread : LocalDateTime.ofText? m.text = some ⟨m.date, m.time.asWritten⟩ :=
    whole_of_read (localFields_text m)
  rw [hread, Option.some.injEq, ← Time.asWritten_eq_self_iff]
  exact ⟨fun h => congrArg LocalDateTime.time h, fun h => by rw [h]⟩

/-- A leap second in a year of five digits. -/
example : (LocalDateTime.ofText? "+12345-06-30T23:59:60.000250").map LocalDateTime.text =
    some "+12345-06-30T23:59:60.000250" := by
  rfl

/-- A date and time with an offset is read back from its text exactly if the year has four digits
and no sign, the time is read back, and the offset is one of whole minutes. -/
theorem DateTime.ofText?_text_iff {m : DateTime} :
    DateTime.ofText? m.text = some m ↔
      (0 ≤ m.moment.date.year ∧ m.moment.date.year ≤ 9999) ∧ m.moment.time.Regular ∧
        m.offset % 60 = 0 := by
  by_cases hyear : 0 ≤ m.moment.date.year ∧ m.moment.date.year ≤ 9999
  · have hread : DateTime.ofText? m.text = DateTime.ofFields?
        ⟨m.moment.date, m.moment.time.asWritten⟩ (wholeMinutes m.offset) := by
      have hrun : offsetFields.run m.text.toList = _ := offsetFields_text hyear
      rw [DateTime.ofText?, whole, hrun]
      cases DateTime.ofFields? _ _ <;> rfl
    rw [hread, and_iff_right hyear, ← Time.asWritten_eq_self_iff, ← wholeMinutes_eq_self_iff]
    constructor
    · intro h
      unfold DateTime.ofFields? at h
      split at h
      · have hbuilt := Option.some.inj h
        exact ⟨congrArg (fun m => m.moment.time) hbuilt, congrArg DateTime.offset hbuilt⟩
      · cases h
    · rintro ⟨htime, hoffset⟩
      rw [htime, hoffset]
      exact dif_pos m.offset_range
  · have hread : offsetFields.run m.text.toList = none := offsetFields_signed hyear
    rw [DateTime.ofText?, whole, hread]
    exact iff_of_false nofun fun h => hyear h.1

end GraphMapper
