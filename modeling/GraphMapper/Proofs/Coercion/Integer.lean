import Mathlib.Algebra.Order.Field.Rat
import Mathlib.Data.List.Induction
import Mathlib.Data.Nat.Digits.Defs
import GraphMapper.Proofs.Coercion

/-!
# Coercion to an integer keeps the number

What number a value denotes is said without the readers (`Value.Denotes`): an integer denotes
itself, a text the number of the decimal numeral between its white space, and a floating-point
number the rational number that it is. `coerce_integer_exact_iff` says which values are coerced to
the integer that they denote, and refused if it has more than 64 bits: all but the floating-point
numbers outside of the range of 64 bits.

Such a number is an integer, since a fraction needs all the bits of its mantissa for a magnitude
below `2 ^ 53` (`isInteger_of_not_fits64`), so that it passes for one and becomes the nearest number
of 64 bits. Different numbers are then the same (`coerce_integer_large`).
-/

namespace GraphMapper

open Coercion

/-! ## Numerals -/

/-- The digits are a decimal numeral of the number: the last one counts ones, the one before it
tens. -/
def Text.Numeral (digits : List Char) (n : Nat) : Prop :=
  digits ≠ [] ∧ (∀ c ∈ digits, c.isDigit) ∧
    n = Nat.ofDigits 10 (digits.reverse.map Text.digitValue)

/-- The text is a decimal numeral of the number, behind at most one sign. -/
inductive Text.SignedNumeral : List Char → Int → Prop
  | unsigned {digits : List Char} {n : Nat} (h : Numeral digits n) : SignedNumeral digits n
  | plus {digits : List Char} {n : Nat} (h : Numeral digits n) : SignedNumeral ('+' :: digits) n
  | minus {digits : List Char} {n : Nat} (h : Numeral digits n) : SignedNumeral ('-' :: digits) (-n)

/-- Digits denote what they count. -/
theorem Text.numeralValue_eq_ofDigits (digits : List Char) :
    numeralValue digits = Nat.ofDigits 10 (digits.reverse.map digitValue) := by
  -- The reader goes on from the highest digit, so the last one is taken off first.
  induction digits using List.reverseRecOn with
  | nil => rfl
  | append_singleton digits c ih =>
    unfold numeralValue at ih ⊢
    rw [List.foldl_append, List.foldl_cons, List.foldl_nil, ih, List.reverse_append,
      List.reverse_singleton, List.singleton_append, List.map_cons, Nat.ofDigits_cons]
    omega

/-- The reader of unsigned numerals reads what they denote. -/
theorem Text.natural?_eq_some {cs : List Char} {n : Nat} :
    natural? cs = some n ↔ Numeral cs n := by
  unfold natural? Numeral
  rw [numeralValue_eq_ofDigits]
  constructor
  · intro h
    split at h
    · rename_i hdigits
      cases h
      exact ⟨hdigits.1, List.all_eq_true.mp hdigits.2, rfl⟩
    · cases h
  · rintro ⟨hne, hdigits, rfl⟩
    rw [if_pos ⟨hne, List.all_eq_true.mpr hdigits⟩]

/-- A numeral begins with a digit. -/
theorem Text.Numeral.isDigit_head {c : Char} {cs : List Char} {n : Nat}
    (h : Numeral (c :: cs) n) : c.isDigit :=
  h.2.1 c List.mem_cons_self

/-- The reader of integers reads what their numerals denote. -/
theorem Text.integer?_eq_some {cs : List Char} {n : Int} :
    integer? cs = some n ↔ SignedNumeral cs n := by
  constructor
  · intro h
    unfold integer? at h
    split at h
    all_goals
      simp only [Option.map_eq_some_iff, Option.bind_eq_bind, Option.bind_eq_some_iff,
        Option.pure_def, Option.some.injEq] at h
      obtain ⟨_, ⟨m, hm, rfl⟩, rfl⟩ := h
    · exact .minus (natural?_eq_some.mp hm)
    · exact .plus (natural?_eq_some.mp hm)
    · exact .unsigned (natural?_eq_some.mp hm)
  · intro h
    cases h with
    | plus h => simp [integer?, natural?_eq_some.mpr h]
    | minus h => simp [integer?, natural?_eq_some.mpr h]
    | unsigned h =>
      have hread := natural?_eq_some.mpr h
      -- A sign is no digit, so that a numeral is not read as a signed one.
      unfold integer?
      split
      · exact absurd h.isDigit_head (by decide)
      · exact absurd h.isDigit_head (by decide)
      · simp [hread]

/-! ## Floating-point numbers -/

namespace Binary64

/-- The rational number that a finite number is. -/
def value? : Binary64 → Option ℚ
  | .finite negative mantissa scale _ =>
    let magnitude : ℚ := ((mantissa * Nat.pow 2 scale : Nat) : ℚ) / (unitsPerOne : ℚ)
    some (if negative then -magnitude else magnitude)
  | _ => none

/-- A fraction of natural numbers is an integer exactly if the division leaves no rest. -/
theorem div_eq_intCast {numerator denominator : Nat} {n : Int} (hpos : 0 < denominator) :
    (numerator : ℚ) / (denominator : ℚ) = (n : ℚ) ↔
      numerator % denominator = 0 ∧ ((numerator / denominator : Nat) : Int) = n := by
  have hne : (denominator : ℚ) ≠ 0 := Nat.cast_ne_zero.mpr (Nat.ne_of_gt hpos)
  have hne' : (denominator : Int) ≠ 0 := Int.natCast_ne_zero.mpr (Nat.ne_of_gt hpos)
  have hcast : (numerator : ℚ) = (n : ℚ) * (denominator : ℚ) ↔
      (numerator : Int) = n * (denominator : Int) := by norm_cast
  rw [div_eq_iff hne, hcast]
  constructor
  · intro h
    have hrest : (numerator : Int) % (denominator : Int) = 0 := by
      rw [h]
      exact Int.mul_emod_left n denominator
    refine ⟨mod_cast hrest, ?_⟩
    rw [Int.natCast_ediv, h]
    exact Int.mul_ediv_cancel n hne'
  · rintro ⟨hrest, rfl⟩
    exact_mod_cast (Nat.div_mul_cancel (Nat.dvd_of_mod_eq_zero hrest)).symm

/-- The units that make one are a power of two. -/
theorem exists_unitsPerOne_eq : ∃ k, unitsPerOne = Nat.pow 2 k := by
  unfold unitsPerOne
  exact ⟨1074, rfl⟩

/-- There is a unit in one. -/
theorem unitsPerOne_pos : 0 < unitsPerOne := by
  obtain ⟨k, hk⟩ := exists_unitsPerOne_eq
  rw [hk]
  exact Nat.pow_pos (by decide)

/-- The integer of a number is the number. -/
theorem toInt?_eq_some {x : Binary64} {n : Int} :
    x.toInt? = some n ↔ x.value? = some (n : ℚ) := by
  cases x with
  | nan => exact iff_of_false (fun h => nomatch h) (fun h => nomatch h)
  | infinite negative => exact iff_of_false (fun h => nomatch h) (fun h => nomatch h)
  | finite negative mantissa scale canonical =>
    have hpos := unitsPerOne_pos
    simp only [toInt?, value?, Option.some.injEq]
    generalize mantissa * Nat.pow 2 scale = units
    generalize unitsPerOne = d at hpos
    have hdiv (n : Int) : (units : ℚ) / (d : ℚ) = (n : ℚ) ↔
        units % d = 0 ∧ ((units / d : Nat) : Int) = n := div_eq_intCast hpos
    cases negative with
    | false => simp [hdiv]
    | true =>
      simp only [if_true, neg_eq_iff_eq_neg, ← Int.cast_neg]
      rw [hdiv]
      simp [neg_eq_iff_eq_neg]

/-- The mantissa of a number that is no integer bounds its magnitude. -/
theorem units_lt_of_toInt?_eq_none {negative : Bool} {mantissa scale : Nat}
    {canonical : Canonical mantissa scale}
    (h : (finite negative mantissa scale canonical).toInt? = none) :
    mantissa * Nat.pow 2 scale < Nat.pow 2 53 * unitsPerOne := by
  obtain ⟨k, hk⟩ := exists_unitsPerOne_eq
  -- At a scale that reaches the point, the units make up ones, and the number is an integer.
  have hscale : scale < k := by
    by_contra hge
    have hdvd : unitsPerOne ∣ mantissa * Nat.pow 2 scale := by
      rw [hk]
      exact Dvd.dvd.mul_left (Nat.pow_dvd_pow 2 (Nat.le_of_not_lt hge)) mantissa
    rw [toInt?, if_pos (Nat.mod_eq_zero_of_dvd hdvd)] at h
    cases h
  have hpow : Nat.pow 2 scale ≤ unitsPerOne := by
    rw [hk]
    exact Nat.pow_le_pow_right (by decide) (Nat.le_of_lt hscale)
  calc mantissa * Nat.pow 2 scale ≤ mantissa * unitsPerOne := Nat.mul_le_mul_left mantissa hpow
    _ < Nat.pow 2 53 * unitsPerOne := Nat.mul_lt_mul_of_pos_right canonical.1 unitsPerOne_pos

end Binary64

/-! ## Integers of 64 bits -/

/-- The number is in the range of 64 bits. -/
def Fits64 (q : ℚ) : Prop :=
  (Int64.minValue.toInt : ℚ) ≤ q ∧ q ≤ (Int64.maxValue.toInt : ℚ)

/-- Whether an integer is in range does not depend on fractions. -/
theorem fits64_intCast {n : Int} :
    Fits64 n ↔ Int64.minValue.toInt ≤ n ∧ n ≤ Int64.maxValue.toInt := by
  rw [Fits64, Int.cast_le, Int.cast_le]

/-- An integer of 64 bits is in range. -/
theorem fits64_toInt (i : Int64) : Fits64 i.toInt :=
  fits64_intCast.mpr ⟨i.minValue_le_toInt, i.toInt_le⟩

/-- An integer that is in range is kept in 64 bits. -/
theorem toInt_ofInt_of_fits64 {n : Int} (h : Fits64 n) : (Int64.ofInt n).toInt = n := by
  obtain ⟨hmin, hmax⟩ := fits64_intCast.mp h
  have hmax' : n < Int64.maxValue.toInt + 1 := Int.lt_add_one_of_le hmax
  exact Int64.toInt_ofInt_of_le hmin hmax'

/-- Clamping leaves the integers of the range alone. -/
theorem toInt_clamp {n : Int} (h : Fits64 n) : (clamp n).toInt = n := by
  obtain ⟨hmin, hmax⟩ := fits64_intCast.mp h
  rw [clamp, if_neg (Int.not_lt.mpr hmin), if_neg (Int.not_lt.mpr hmax), toInt_ofInt_of_fits64 h]

/-- An integer is one of 64 bits exactly if it is in range. -/
theorem int64?_eq_some {n : Int} {i : Int64} : int64? n = some i ↔ n = i.toInt := by
  constructor
  · intro h
    unfold int64? at h
    split at h
    · rename_i hfits
      cases h
      exact (toInt_ofInt_of_fits64 (fits64_intCast.mpr hfits)).symm
    · cases h
  · rintro rfl
    rw [int64?, if_pos (fits64_intCast.mp (fits64_toInt i)), Int64.ofInt_toInt]

/-- What has a magnitude below the range of mantissas is in range. -/
theorem fits64_of_abs_lt {q : ℚ} (h : |q| < ((Nat.pow 2 53 : Nat) : ℚ)) : Fits64 q := by
  have hmin : (Int64.minValue.toInt : ℚ) ≤ -((Nat.pow 2 53 : Nat) : ℚ) := by
    rw [← Int.cast_natCast, ← Int.cast_neg, Int.cast_le]
    decide
  have hmax : ((Nat.pow 2 53 : Nat) : ℚ) ≤ (Int64.maxValue.toInt : ℚ) := by
    rw [← Int.cast_natCast, Int.cast_le]
    decide
  obtain ⟨hlower, hupper⟩ := abs_lt.mp h
  exact ⟨hmin.trans hlower.le, hupper.le.trans hmax⟩

/-- A finite number that is out of range is an integer. -/
theorem Binary64.isInteger_of_not_fits64 {x : Binary64} {q : ℚ} (hvalue : x.value? = some q)
    (hfits : ¬Fits64 q) : ∃ n, x.toInt? = some n := by
  refine Option.ne_none_iff_exists'.mp fun hnone => hfits (fits64_of_abs_lt ?_)
  cases x with
  | nan => cases hvalue
  | infinite negative => cases hvalue
  | finite negative mantissa scale canonical =>
    have hunits := units_lt_of_toInt?_eq_none hnone
    rw [value?, Option.some.injEq] at hvalue
    generalize mantissa * Nat.pow 2 scale = units at hunits hvalue
    have hpos : (0 : ℚ) < (unitsPerOne : ℚ) := Nat.cast_pos.mpr unitsPerOne_pos
    have hnonneg : (0 : ℚ) ≤ (units : ℚ) / (unitsPerOne : ℚ) :=
      div_nonneg (Nat.cast_nonneg units) hpos.le
    have habs : |q| = (units : ℚ) / (unitsPerOne : ℚ) := by
      rw [← hvalue, apply_ite abs, abs_neg, ite_self, abs_of_nonneg hnonneg]
    rw [habs, div_lt_iff₀ hpos]
    exact_mod_cast hunits

/-! ## What a value denotes -/

/-- The value denotes the number. -/
inductive Value.Denotes : Value → ℚ → Prop
  | int (i : Int64) : Denotes (.int i) (i.toInt : ℚ)
  | text {s : String} {n : Int} (h : Text.SignedNumeral (Text.trim s).toList n) :
    Denotes (.string s) (n : ℚ)
  | float {x : Binary64} {q : ℚ} (h : x.value? = some q) : Denotes (.float x) q

/-- A value denotes one number at most. -/
theorem Value.Denotes.unique {value : Value} {q r : ℚ} (hq : value.Denotes q)
    (hr : value.Denotes r) : q = r := by
  cases hq with
  | int i =>
    cases hr
    rfl
  | text hq =>
    cases hr with
    | text hr =>
      have hread := Text.integer?_eq_some.mpr hq
      rw [Text.integer?_eq_some.mpr hr, Option.some.injEq] at hread
      rw [hread]
  | float hq =>
    cases hr with
    | float hr => exact Option.some.inj (hq.symm.trans hr)

/-- A text is coerced to the integer that its numeral denotes. -/
theorem coerce_integer_text {s : String} {i : Int64} :
    coerce .integer (.string s) = .ok (.int i) ↔ (Value.string s).Denotes (i.toInt : ℚ) := by
  -- The reader checks the range of what the numeral denotes.
  have hread : readInt? (Text.trim s) = some i ↔
      Text.SignedNumeral (Text.trim s).toList i.toInt := by
    rw [← Text.integer?_eq_some, readInt?, Option.bind_eq_some_iff]
    constructor
    · rintro ⟨n, hn, hi⟩
      rwa [← int64?_eq_some.mp hi]
    · exact fun h => ⟨i.toInt, h, int64?_eq_some.mpr rfl⟩
  constructor
  · intro h
    obtain ⟨j, hj, hij⟩ := exists_of_orRefused h
    cases hij
    exact .text (hread.mp hj)
  · intro h
    generalize hq : (i.toInt : ℚ) = q at h
    cases h with
    | text h =>
      cases Int.cast_injective hq
      simp only [coerce, ofText, hread.mpr h]
      rfl

/-- A floating-point number of the range is coerced to the integer that it is. -/
theorem coerce_integer_float {x : Binary64} (hfits : ∀ q, x.value? = some q → Fits64 q)
    {i : Int64} :
    coerce .integer (.float x) = .ok (.int i) ↔ (Value.float x).Denotes (i.toInt : ℚ) := by
  constructor
  · intro h
    dsimp only [coerce] at h
    split at h
    · rename_i n hn
      cases h
      -- The nearest integer of 64 bits is the number itself only where that is in range.
      have hvalue := Binary64.toInt?_eq_some.mp hn
      rw [toInt_clamp (hfits _ hvalue)]
      exact .float hvalue
    · cases h
  · intro h
    cases h with
    | float h =>
      have hclamp : clamp i.toInt = i := Int64.toInt_inj.mp (toInt_clamp (fits64_toInt i))
      simp only [coerce, Binary64.toInt?_eq_some.mpr h, hclamp]

/-- What is coerced to an integer is one. -/
theorem exists_int_of_coerce {value result : Value} (h : coerce .integer value = .ok result) :
    ∃ i, result = .int i := by
  cases holds_of_coerce h with
  | integer i => exact ⟨i, rfl⟩

/-- A value of the range is coerced to the integer that it denotes, if it denotes one. -/
theorem coerce_integer_eq_iff {value : Value}
    (hfits : ∀ x, value = .float x → ∀ q, x.value? = some q → Fits64 q) (i : Int64) :
    coerce .integer value = .ok (.int i) ↔ value.Denotes (i.toInt : ℚ) := by
  cases value with
  | int j =>
    constructor
    · intro h
      cases h
      exact .int i
    · intro h
      generalize hq : (i.toInt : ℚ) = q at h
      cases h
      rw [Int64.toInt_inj.mp (Int.cast_injective hq)]
      rfl
  | string s => exact coerce_integer_text
  | float x => exact coerce_integer_float (hfits x rfl)
  | _ => exact iff_of_false (fun h => nomatch h) (fun h => nomatch h)

/-- Values are coerced to the integers that they denote, and refused if these are out of range: all
but the floating-point numbers that are out of range. -/
theorem coerce_integer_exact_iff (value : Value) :
    ((∀ i, coerce .integer value = .ok (.int i) ↔ value.Denotes (i.toInt : ℚ)) ∧
      ∀ q, value.Denotes q → ¬Fits64 q → ∃ refusal, coerce .integer value = .error refusal) ↔
    ∀ x, value = .float x → ∀ q, x.value? = some q → Fits64 q := by
  constructor
  · rintro ⟨-, hrefused⟩ x rfl q hq
    by_contra hfits
    -- Out of range there are integers only, so that the number is taken for one and not refused.
    obtain ⟨n, hn⟩ := Binary64.isInteger_of_not_fits64 hq hfits
    obtain ⟨refusal, hresult⟩ := hrefused q (.float hq) hfits
    simp only [coerce, hn] at hresult
    cases hresult
  · intro hfits
    refine ⟨coerce_integer_eq_iff hfits, fun q hq hout => ?_⟩
    cases hresult : coerce .integer value with
    | error refusal => exact ⟨refusal, rfl⟩
    | ok result =>
      -- What it is coerced to is in range, and is all that it denotes.
      obtain ⟨i, rfl⟩ := exists_int_of_coerce hresult
      have hi : q = (i.toInt : ℚ) := hq.unique ((coerce_integer_eq_iff hfits i).mp hresult)
      exact absurd (hi ▸ fits64_toInt i) hout

/-- A numeral is coerced to the integer that it denotes, with a sign and between white space, and
refused if that is the least number above the range. -/
theorem numerals_coerced :
    coerce .integer (.string " +42 ") = .ok (.int 42) ∧
      ∃ refusal, coerce .integer (.string "9223372036854775808") = .error refusal := by
  have hshort : Text.SignedNumeral (Text.trim " +42 ").toList 42 :=
    Text.integer?_eq_some.mp (by decide)
  have hlong : Text.SignedNumeral (Text.trim "9223372036854775808").toList 9223372036854775808 :=
    Text.integer?_eq_some.mp (by decide)
  have hout : ¬Fits64 ((9223372036854775808 : Int) : ℚ) :=
    fun hfits => absurd (fits64_intCast.mp hfits).2 (by decide)
  obtain ⟨hexact, -⟩ := (coerce_integer_exact_iff (.string " +42 ")).mpr fun x h => nomatch h
  obtain ⟨-, hrefused⟩ :=
    (coerce_integer_exact_iff (.string "9223372036854775808")).mpr fun x h => nomatch h
  exact ⟨(hexact 42).mpr (.text hshort), hrefused _ (.text hlong) hout⟩

/-- The least number above the range, `2 ^ 63`. -/
def aboveRange : Binary64 :=
  .finite false (Nat.pow 2 52) 1085 (by decide)

/-- Twice that number. -/
def farAboveRange : Binary64 :=
  .finite false (Nat.pow 2 52) 1086 (by decide)

/-- Two numbers out of range become one and the same integer, which is neither of them. -/
theorem coerce_integer_large :
    ((Value.float aboveRange).Denotes ((9223372036854775808 : Int) : ℚ) ∧
      coerce .integer (.float aboveRange) = .ok (.int 9223372036854775807)) ∧
    ((Value.float farAboveRange).Denotes ((18446744073709551616 : Int) : ℚ) ∧
      coerce .integer (.float farAboveRange) = .ok (.int 9223372036854775807)) := by
  have habove : aboveRange.toInt? = some 9223372036854775808 := by decide +kernel
  have hfar : farAboveRange.toInt? = some 18446744073709551616 := by decide +kernel
  have hclamp : clamp 9223372036854775808 = 9223372036854775807 := by decide
  have hclampFar : clamp 18446744073709551616 = 9223372036854775807 := by decide
  refine ⟨⟨.float (Binary64.toInt?_eq_some.mp habove), ?_⟩,
    ⟨.float (Binary64.toInt?_eq_some.mp hfar), ?_⟩⟩
  · simp only [coerce, habove, hclamp]
  · simp only [coerce, hfar, hclampFar]

end GraphMapper
