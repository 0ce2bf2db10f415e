import Mathlib.Algebra.Ring.Nat
import Mathlib.Data.List.Induction
import Mathlib.Data.List.SplitLengths
import GraphMapper.Proofs.Attempt
import GraphMapper.Uuid

/-!
# Identifiers are read back from their text

The text of an identifier is one of the forms that `Uuid.ofText?` reads, and the only one that it
is written in, so that a text that was read and written once stays as it is (`ofText?_text`). The
digits are followed from the last one: the others are those of a sixteenth of the number
(`hexDigits_succ`), and what they add up to is the number, but for what does not fit
(`foldl_hexDigits`). The hyphens that are put between groups of digits are taken out again whatever
the sizes of the groups are (`joinGroups?_hyphenate`).

A text is that of an identifier exactly if it has the form `Canonical`, which is said without
numbers (`canonical_iff`).
-/

namespace GraphMapper.Uuid

/-- A digit has the value that it is written for. -/
theorem hexValue?_hexDigit (n : Nat) : hexValue? (hexDigit n) = some (n % 16) := by
  have hall : ∀ d < 16, hexValue? (Nat.digitChar d) = some d := by decide
  exact hall (n % 16) (Nat.mod_lt n (by decide))

/-- The values of the last `count` hexadecimal digits of a number, the highest one first. -/
def hexDigits (count n : Nat) : List Nat :=
  (List.range count).map fun i => n / Nat.pow 16 (count - 1 - i) % 16

/-- The digits before the last one are those of a sixteenth. -/
theorem hexDigits_succ (count n : Nat) :
    hexDigits (count + 1) n = hexDigits count (n / 16) ++ [n % 16] := by
  unfold hexDigits
  rw [List.range_succ, List.map_append]
  congr 1
  · refine List.map_congr_left fun i hi => ?_
    have hlt : i < count := List.mem_range.mp hi
    have hpow : Nat.pow 16 (count + 1 - 1 - i) = 16 * Nat.pow 16 (count - 1 - i) := by
      have hsucc : count + 1 - 1 - i = count - 1 - i + 1 := by omega
      rw [hsucc]
      exact Nat.pow_succ'
    rw [hpow, ← Nat.div_div_eq_div_mul]
  · simp

/-- Digits add up to the number, but for what does not fit into so many of them. -/
theorem foldl_hexDigits (count n : Nat) :
    (hexDigits count n).foldl (16 * · + ·) 0 = n % 16 ^ count := by
  induction count generalizing n with
  | zero => simp [hexDigits, Nat.mod_one]
  | succ count ih =>
    have hlast : n % 16 ^ (count + 1) = 16 * (n / 16 % 16 ^ count) + n % 16 := by
      rw [Nat.pow_succ', Nat.mod_mul]
      omega
    rw [hexDigits_succ, List.foldl_append, ih, hlast]
    rfl

/-- The digits of an identifier are read as their values. -/
theorem mapM_hexValue?_digits (u : Uuid) :
    u.digits.mapM hexValue? = some (hexDigits 32 u.value.toNat) := by
  refine mapM_eq_some.mpr ?_
  unfold digits hexDigits
  rw [List.forall₂_map_left_iff, List.forall₂_map_right_iff]
  exact List.forall₂_same.mpr fun i _ => hexValue?_hexDigit _

/-- There are 32 digits. -/
theorem length_digits (u : Uuid) : u.digits.length = 32 := by
  rw [digits, List.length_map, List.length_range]

/-- An identifier is read back from its digits. -/
theorem ofDigits?_digits (u : Uuid) : ofDigits? u.digits = some u := by
  have hfits : u.value.toNat % 16 ^ 32 = u.value.toNat := Nat.mod_eq_of_lt u.value.isLt
  rw [ofDigits?, if_pos u.length_digits, mapM_hexValue?_digits, Option.map_some, foldl_hexDigits,
    hfits, BitVec.ofNat_toNat, BitVec.setWidth_eq]

/-- Hyphens that are put between groups are taken out again. -/
theorem joinGroups?_hyphenate {sizes : List Nat} {cs : List Char} (hsizes : sizes ≠ [])
    (hlength : cs.length = sizes.sum) : joinGroups? sizes (hyphenate sizes cs) = some cs := by
  induction sizes generalizing cs with
  | nil => exact absurd rfl hsizes
  | cons size rest ih =>
    rw [List.sum_cons] at hlength
    cases rest with
    | nil =>
      have hsize : cs.length = size := by simpa using hlength
      rw [hyphenate, joinGroups?, List.take_of_length_le (Nat.le_of_eq hsize), if_pos hsize]
    | cons next more =>
      have htake : (cs.take size).length = size := by
        rw [List.length_take]
        omega
      have hrest : (cs.drop size).length = (next :: more).sum := by
        rw [List.length_drop]
        omega
      have hdrop : (cs.take size ++ '-' :: hyphenate (next :: more) (cs.drop size)).drop size =
          '-' :: hyphenate (next :: more) (cs.drop size) := List.drop_left' htake
      have hgroup : (cs.take size ++ '-' :: hyphenate (next :: more) (cs.drop size)).take size =
          cs.take size := List.take_left' htake
      simp only [hyphenate, joinGroups?, hdrop, hgroup, ih (List.cons_ne_nil next more) hrest,
        Option.map_some, List.take_append_drop]

/-- A hyphen is put between each two groups. -/
theorem length_hyphenate {sizes : List Nat} {cs : List Char} (hlength : cs.length = sizes.sum) :
    (hyphenate sizes cs).length = sizes.sum + (sizes.length - 1) := by
  induction sizes generalizing cs with
  | nil => rfl
  | cons size rest ih =>
    rw [List.sum_cons] at hlength
    cases rest with
    | nil =>
      have hsize : cs.length = size := by simpa using hlength
      simp [hyphenate, hsize]
    | cons next more =>
      have hrest : (cs.drop size).length = (next :: more).sum := by
        rw [List.length_drop]
        omega
      have hmore := ih hrest
      simp only [List.sum_cons, List.length_cons] at hmore hlength ⊢
      rw [hyphenate, List.length_append, List.length_take, List.length_cons, hmore]
      · omega
      · exact fun h => nomatch h

/-- An identifier is read back from its text. -/
theorem ofText?_text (u : Uuid) : ofText? u.text = some u := by
  have hdigits : u.digits.length = groups.sum := u.length_digits
  have hlength : (hyphenate groups u.digits).length = 36 := length_hyphenate hdigits
  have hsizes : groups ≠ [] := by decide
  have hread : ofHyphenated? (hyphenate groups u.digits) = some u := by
    rw [ofHyphenated?, joinGroups?_hyphenate hsizes hdigits, Option.bind_some, ofDigits?_digits]
  rw [ofText?, text]
  simp only [String.toList_ofList]
  rw [if_neg (by omega), if_pos hlength, hread]

/-! ## What the texts look like -/

/-- Eight, four, four, four and twelve lower-case hexadecimal digits, with a hyphen between each two
of these groups. -/
def Canonical (s : String) : Prop :=
  ∃ parts : List (List Char), parts.map List.length = [8, 4, 4, 4, 12] ∧
    (∀ part ∈ parts, ∀ c ∈ part, c ∈ "0123456789abcdef".toList) ∧
    s.toList = ['-'].intercalate parts

/-- A digit is written in lower case. -/
theorem hexDigit_mem (n : Nat) : hexDigit n ∈ "0123456789abcdef".toList := by
  have hall : ∀ d < 16, Nat.digitChar d ∈ "0123456789abcdef".toList := by decide
  exact hall (n % 16) (Nat.mod_lt n (by decide))

/-- Lower-case digits are written for numbers below sixteen. -/
theorem exists_digitChar {cs : List Char} (h : ∀ c ∈ cs, c ∈ "0123456789abcdef".toList) :
    ∃ ds : List Nat, (∀ d ∈ ds, d < 16) ∧ cs = ds.map Nat.digitChar := by
  have hall : "0123456789abcdef".toList = (List.range 16).map Nat.digitChar := by decide
  rw [hall] at h
  induction cs with
  | nil => exact ⟨[], by simp, rfl⟩
  | cons c cs ih =>
    obtain ⟨d, hd, rfl⟩ := List.mem_map.mp (h c List.mem_cons_self)
    obtain ⟨ds, hds, rfl⟩ := ih fun c hc => h c (List.mem_cons_of_mem _ hc)
    exact ⟨d :: ds, List.forall_mem_cons.mpr ⟨List.mem_range.mp hd, hds⟩, rfl⟩

/-- Digits add up to a number that has them as its digits, and no more of them. -/
theorem hexDigits_foldl {ds : List Nat} (h : ∀ d ∈ ds, d < 16) :
    hexDigits ds.length (ds.foldl (16 * · + ·) 0) = ds ∧
      ds.foldl (16 * · + ·) 0 < 16 ^ ds.length := by
  induction ds using List.reverseRecOn with
  | nil => exact ⟨rfl, by simp⟩
  | append_singleton ds d ih =>
    -- The last digit is the rest by sixteen, and the others are those of the quotient.
    obtain ⟨hdigits, hlt⟩ := ih fun d hd => h d (List.mem_append_left _ hd)
    have hd : d < 16 := h d (by simp)
    simp only [List.foldl_append, List.foldl_cons, List.foldl_nil, List.length_append,
      List.length_singleton]
    generalize ds.foldl (16 * · + ·) 0 = n at hdigits hlt
    have hdiv : (16 * n + d) / 16 = n := by omega
    have hmod : (16 * n + d) % 16 = d := by omega
    refine ⟨by rw [hexDigits_succ, hdiv, hmod, hdigits], ?_⟩
    rw [Nat.pow_succ']
    omega

/-- The digits of an identifier are written for the hexadecimal digits of its number. -/
theorem digits_eq_map (u : Uuid) : u.digits = (hexDigits 32 u.value.toNat).map Nat.digitChar := by
  rw [digits, hexDigits, List.map_map]
  rfl

/-- Any 32 lower-case digits are those of an identifier. -/
theorem exists_digits {cs : List Char} (hlength : cs.length = 32)
    (h : ∀ c ∈ cs, c ∈ "0123456789abcdef".toList) : ∃ u : Uuid, u.digits = cs := by
  obtain ⟨ds, hds, rfl⟩ := exists_digitChar h
  rw [List.length_map] at hlength
  obtain ⟨hdigits, hlt⟩ := hexDigits_foldl hds
  rw [hlength] at hdigits hlt
  refine ⟨⟨BitVec.ofNat 128 (ds.foldl (16 * · + ·) 0)⟩, ?_⟩
  have hfits : (BitVec.ofNat 128 (ds.foldl (16 * · + ·) 0)).toNat = ds.foldl (16 * · + ·) 0 :=
    Nat.mod_eq_of_lt hlt
  rw [digits_eq_map, hfits, hdigits]

/-- To hyphenate digits is to put a hyphen between each two groups of them. -/
theorem hyphenate_flatten (parts : List (List Char)) :
    hyphenate (parts.map List.length) parts.flatten = ['-'].intercalate parts := by
  induction parts with
  | nil => rfl
  | cons part rest ih =>
    cases rest with
    | nil => simp [hyphenate, List.intercalate]
    | cons next more =>
      simp only [List.map_cons, List.flatten_cons] at ih ⊢
      rw [hyphenate, List.take_left, List.drop_left, ih]
      · rfl
      · exact fun h => nomatch h

/-- The texts of identifiers are those of this form. -/
theorem canonical_iff {s : String} : Canonical s ↔ ∃ u : Uuid, s = u.text := by
  constructor
  · rintro ⟨parts, hsizes, hdigits, hs⟩
    have hlength : parts.flatten.length = 32 := by
      rw [List.length_flatten, hsizes]
      rfl
    obtain ⟨u, hu⟩ := exists_digits hlength fun c hc => by
      obtain ⟨part, hpart, hc⟩ := List.mem_flatten.mp hc
      exact hdigits part hpart c hc
    refine ⟨u, String.toList_injective ?_⟩
    rw [hs, ← hyphenate_flatten, hsizes, text, hu, String.toList_ofList]
    rfl
  · rintro ⟨u, rfl⟩
    -- The digits are cut where the text has its hyphens.
    have hsum : groups.sum = u.digits.length := u.length_digits.symm
    have hflat : (groups.splitLengths u.digits).flatten = u.digits :=
      List.flatten_splitLengths _ _ hsum.ge
    have hsizes : (groups.splitLengths u.digits).map List.length = groups :=
      List.map_splitLengths_length _ _ hsum.le
    refine ⟨groups.splitLengths u.digits, hsizes, fun part hpart c hc => ?_, ?_⟩
    · have hmem : c ∈ u.digits := hflat ▸ List.mem_flatten.mpr ⟨part, hpart, hc⟩
      obtain ⟨i, -, rfl⟩ := List.mem_map.mp hmem
      exact hexDigit_mem _
    · rw [text, String.toList_ofList, ← hyphenate_flatten, hsizes, hflat]

end GraphMapper.Uuid
