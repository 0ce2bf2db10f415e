import GraphMapper.Coercion
import GraphMapper.Proofs.Uuid

/-!
# What a coercion comes to

A coercion never makes a null of a value (`isNull_of_coerce`), so that a property that was given is
there once it is checked. A list is let through as it is, by the one declared type that takes lists
(`coerce_list`).

The values of a declared type are told by their form alone (`PropertyType.Holds`). What was coerced
is one of them (`holds_of_coerce`), and they are what a coercion leaves as it is
(`coerce_eq_self_iff`), so that a further coercion changes nothing (`coerce_of_coerce`).
-/

namespace GraphMapper

open Coercion

/-- What is read from a text is made of what was found in it. -/
theorem exists_of_orRefused {α : Type} {refusal : Refusal} {found : Option α}
    {make : α → Value} {result : Value}
    (h : orRefused refusal (found.map make) = .ok result) :
    ∃ a, found = some a ∧ result = make a := by
  cases found with
  | none => cases h
  | some a =>
    cases h
    exact ⟨a, rfl, rfl⟩

/-- What is read from a text is no null if no result of the reading is. -/
theorem isNull_of_orRefused {α : Type} {refusal : Refusal} {found : Option α} {make : α → Value}
    {result : Value} (hmake : ∀ a, (make a).isNull = false)
    (h : orRefused refusal (found.map make) = .ok result) : result.isNull = false := by
  obtain ⟨a, -, rfl⟩ := exists_of_orRefused h
  exact hmake a

/-- A text is read as no null. -/
theorem isNull_of_ofText {text : String} {type : PropertyType} {result : Value}
    (h : ofText text type = .ok result) : result.isNull = false := by
  cases type <;> simp only [ofText] at h
  case any => cases h; rfl
  case string => cases h; rfl
  case point => cases h
  case number =>
    split at h
    · cases h
      rfl
    · exact isNull_of_orRefused (fun _ => rfl) h
  all_goals exact isNull_of_orRefused (fun _ => rfl) h

/-- Coordinates are read as a point. -/
theorem exists_point_of_pointOf {entries : Bag} {result : Value}
    (h : pointOf entries = .ok result) : ∃ p, result = .point p := by
  unfold pointOf at h
  split at h
  · cases h
    exact ⟨_, rfl⟩
  · split at h
    · cases h
      exact ⟨_, rfl⟩
    · cases h

/-- What is given stays given when it is coerced. -/
theorem isNull_of_coerce {type : PropertyType} {value result : Value}
    (h : coerce type value = .ok result) (hvalue : value.isNull = false) :
    result.isNull = false := by
  unfold coerce at h
  dsimp only at h
  split at h
  case h_2 => exact isNull_of_ofText h
  case h_7 => split at h <;> cases h; rfl
  case h_18 =>
    obtain ⟨p, rfl⟩ := exists_point_of_pointOf h
    rfl
  case h_19 => cases h
  all_goals cases h
  case h_1 => exact hvalue
  all_goals rfl

/-- The value is one of the declared type. An identifier is kept as the text of the one form that it
is written in. -/
inductive PropertyType.Holds : PropertyType → Value → Prop
  | any (value : Value) : Holds .any value
  | string (s : String) : Holds .string (.string s)
  | integer (i : Int64) : Holds .integer (.int i)
  | float (x : Binary64) : Holds .float (.float x)
  | wholeNumber (i : Int64) : Holds .number (.int i)
  | number (x : Binary64) : Holds .number (.float x)
  | boolean (b : Bool) : Holds .boolean (.bool b)
  | uuid {s : String} (h : Uuid.Canonical s) : Holds .uuid (.string s)
  | date (d : Date) : Holds .date (.date d)
  | dateTime (m : DateTime) : Holds .dateTime (.dateTime m)
  | localDateTime (m : LocalDateTime) : Holds .localDateTime (.localDateTime m)
  | localTime (t : Time) : Holds .localTime (.localTime t)
  | point (p : Point) : Holds .point (.point p)

/-- What is read from a text is of the declared type. -/
theorem holds_of_ofText {text : String} {type : PropertyType} {result : Value}
    (h : ofText text type = .ok result) : type.Holds result := by
  cases type <;> simp only [ofText] at h
  case any => exact .any result
  case string => cases h; exact .string text
  case point => cases h
  case number =>
    split at h
    · cases h
      exact .wholeNumber _
    · obtain ⟨x, -, rfl⟩ := exists_of_orRefused h
      exact .number x
  case uuid =>
    obtain ⟨u, -, rfl⟩ := exists_of_orRefused h
    exact .uuid (Uuid.canonical_iff.mpr ⟨u, rfl⟩)
  all_goals
    obtain ⟨a, -, rfl⟩ := exists_of_orRefused h
    constructor

/-- What is coerced is of the declared type. -/
theorem holds_of_coerce {type : PropertyType} {value result : Value}
    (h : coerce type value = .ok result) : type.Holds result := by
  unfold coerce at h
  dsimp only at h
  split at h
  case h_2 => exact holds_of_ofText h
  case h_7 => split at h <;> cases h; exact .integer _
  case h_18 =>
    obtain ⟨p, rfl⟩ := exists_point_of_pointOf h
    exact .point p
  case h_19 => cases h
  all_goals cases h
  all_goals constructor

/-- A value of the declared type is left as it is. -/
theorem PropertyType.Holds.coerce {type : PropertyType} {value : Value} (h : type.Holds value) :
    coerce type value = .ok value := by
  cases h with
  | uuid hs =>
    -- Identifiers are kept as texts, in the one form that they are written in.
    obtain ⟨u, rfl⟩ := Uuid.canonical_iff.mp hs
    have hread : Uuid.ofText? u.text = some u := Uuid.ofText?_text u
    simp only [GraphMapper.coerce, ofText, hread, Option.map_some]
    rfl
  | _ => rfl

/-- The values of the declared type are those that are left as they are. -/
theorem coerce_eq_self_iff {type : PropertyType} {value : Value} :
    coerce type value = .ok value ↔ type.Holds value :=
  ⟨holds_of_coerce, PropertyType.Holds.coerce⟩

/-- What is coerced once is left as it is. -/
theorem coerce_of_coerce {type : PropertyType} {value result : Value}
    (h : coerce type value = .ok result) : coerce type result = .ok result :=
  coerce_eq_self_iff.mpr (holds_of_coerce h)

/-- A list is coerced to itself. -/
theorem coerce_list {type : PropertyType} {items : List Value} {result : Value}
    (h : coerce type (.list items) = .ok result) : result = .list items := by
  cases type <;> cases h
  rfl

end GraphMapper
