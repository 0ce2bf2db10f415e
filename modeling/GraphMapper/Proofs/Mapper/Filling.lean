import GraphMapper.Proofs.Coercion
import GraphMapper.Proofs.Mapper.Preparation
import GraphMapper.Proofs.Schema.Declarations
import GraphMapper.Proofs.Value

/-!
# What a preparation does to declared properties

Each property that a payload leaves out gets its default, if that is no null, and its name is noted
under the reserved key; each property that is there is coerced. `Filled` says what a bag holds once
its properties are prepared, with the names that were noted, and `exists_filled` that every
preparation comes to such a bag. Which names are noted depends on the results of generators only
where these may be null (`filledNames`). What is declared then has values of its types, and what is
required has a value (`prepared_of_prepareProperties`).
-/

namespace GraphMapper

open Preparing

/-- Whether the property has something to be filled in with. -/
def Property.hasDefault (p : Property) : Bool :=
  p.defaultValue.isSome || p.type = .uuid

/-- Whether a property that is left out gets a value, if generators give no nulls. -/
def Property.isFilled (p : Property) : Bool :=
  match p.defaultValue with
  | some (.literal value) => !value.isNull
  | some (.generator _) => true
  | none => p.type = .uuid

/-- The default of the property is no generator that may give a null. -/
def Property.NeverNull (p : Property) : Prop :=
  ∀ results, p.defaultValue = some (.generator results) → ∀ n, (results n).isNull = false

/-- The names of the properties that a bag leaves out and that get a value, if generators give no
nulls. -/
def filledNames (model : EntityType) (bag : Bag) : List String :=
  (model.properties.filter fun p => (bag.present? p.name).isNone && p.isFilled).map Property.name

variable {model : EntityType} {bag : Bag} {p : Property} {key : String}

/-- What comes of a property that was left out. -/
structure Fills (p : Property) (found : Option Value) : Prop where
  default : found.isSome → p.hasDefault
  isFilled : p.NeverNull → found.isSome = p.isFilled

/-- A value that is stored for a property with a default fills the property, if it is no null. -/
theorem fills_put {value : Value} (hdefault : p.hasDefault)
    (hnull : p.NeverNull → value.isNull = !p.isFilled) :
    Fills p (Bag.present? (KeyedList.put bag p.name value) p.name) := by
  rw [present?_put]
  refine ⟨fun _ => hdefault, fun hnever => ?_⟩
  rw [hnull hnever]
  cases p.isFilled <;> rfl

/-- A property that is left out gets its default. -/
theorem fills_applyDefault (hmissing : bag.present? p.name = none) (supply : Supply) :
    Fills p (Bag.present? ((applyDefault bag p).run supply).1 p.name) := by
  unfold applyDefault
  rw [if_neg (by simp [hmissing])]
  cases hdefault : p.defaultValue with
  | none =>
    by_cases htype : p.type = .uuid
    · rw [htype]
      exact fills_put (by simp [Property.hasDefault, htype])
        fun _ => by simp [Property.isFilled, hdefault, htype, Value.isNull]
    · have hkept : Fills p (bag.present? p.name) := by
        rw [hmissing]
        refine ⟨fun hsome => ?_, fun _ => by simp [Property.isFilled, hdefault, htype]⟩
        cases hsome
      cases hcase : p.type <;> first
        | exact hkept
        | exact absurd hcase htype
  | some default =>
    have hhas : p.hasDefault := by simp [Property.hasDefault, hdefault]
    cases default with
    | literal value => exact fills_put hhas fun _ => by simp [Property.isFilled, hdefault]
    | generator results =>
      exact fills_put hhas fun hnever => by
        simp [Property.isFilled, hdefault, hnever results hdefault]

/-- A property that is there is left as it is. -/
theorem applyDefault_of_present (hpresent : (bag.present? p.name).isSome) (supply : Supply) :
    ((applyDefault bag p).run supply).1 = bag := by
  unfold applyDefault
  rw [if_pos hpresent]
  rfl

section

variable {properties : List Property}

/-- Of several properties each is filled in by itself: it stays as it is if it is there, and gets
its default if it is left out. -/
theorem present?_foldlM_applyDefault (hnodup : (properties.map Property.name).Nodup)
    (hp : p ∈ properties) (supply : Supply) :
    let filled := ((properties.foldlM applyDefault bag : StateM Supply Bag).run supply).1
    (∀ value, bag.present? p.name = some value → filled.present? p.name = some value) ∧
      (bag.present? p.name = none → Fills p (filled.present? p.name)) := by
  induction properties generalizing bag supply with
  | nil => simp at hp
  | cons q rest ih =>
    rw [List.map_cons, List.nodup_cons] at hnodup
    rw [List.foldlM_cons, StateT.run_bind]
    intro filled
    rcases List.mem_cons.mp hp with rfl | hp
    · -- What follows concerns other properties.
      have hfilled : filled.present? p.name =
          Bag.present? ((applyDefault bag p).run supply).1 p.name :=
        present?_congr (get?_foldlM_applyDefault hnodup.1 _)
      rw [hfilled]
      refine ⟨fun value hvalue => ?_, fun hmissing => fills_applyDefault hmissing supply⟩
      rw [applyDefault_of_present (by simp [hvalue]), hvalue]
    · have hne : q.name ≠ p.name := fun hname => hnodup.1 (hname ▸ List.mem_map_of_mem hp)
      rw [← present?_congr (@get?_applyDefault bag p.name q hne supply)]
      exact ih hnodup.2 hp _

/-- A check that refuses nothing coerces a property that is there, and leaves out one that is left
out, unless a new entity needs it. -/
theorem present?_checkProperty {mode : ValidationMode} {checked : Checked}
    (haccepted : (checkProperty mode checked p).failures = []) :
    (∀ value, checked.bag.present? p.name = some value →
      ∃ result, coerce p.type value = .ok result ∧
      (checkProperty mode checked p).bag.present? p.name = some result) ∧
      (checked.bag.present? p.name = none → ¬(mode = .create ∧ p.required) ∧
        (checkProperty mode checked p).bag.present? p.name = none) := by
  unfold checkProperty at haccepted ⊢
  cases hvalue : checked.bag.present? p.name with
  | none =>
    simp only [hvalue] at haccepted ⊢
    refine ⟨nofun, fun _ => ?_⟩
    by_cases hrequired : mode = .create ∧ p.required
    · rw [if_pos hrequired] at haccepted
      simp [Checked.refuse] at haccepted
    · rw [if_neg hrequired]
      exact ⟨hrequired, hvalue⟩
  | some value =>
    simp only [hvalue] at haccepted ⊢
    refine ⟨fun value' hsame => ?_, nofun⟩
    cases hsame
    cases hcoerce : coerce p.type value with
    | error refusal =>
      rw [hcoerce] at haccepted
      simp [Checked.refuse] at haccepted
    | ok result =>
      have hnull : result.isNull = false := isNull_of_coerce hcoerce (present?_eq_some.mp hvalue).2
      exact ⟨result, rfl, by simp [present?_put, hnull]⟩

/-- What was refused stays refused. -/
theorem failures_eq_nil_of_foldl {mode : ValidationMode} {checked : Checked}
    (haccepted : (properties.foldl (checkProperty mode) checked).failures = []) :
    checked.failures = [] := by
  induction properties generalizing checked with
  | nil => exact haccepted
  | cons q rest ih =>
    have hhead := ih haccepted
    unfold checkProperty at hhead
    dsimp only at hhead
    split at hhead <;> split at hhead <;> simp_all [Checked.refuse]

/-- Where no check refuses, each property is checked by itself: it is coerced if it is there, and
left out if it is left out, unless a new entity needs it. -/
theorem present?_foldl_checkProperty {mode : ValidationMode} {checked : Checked}
    (hnodup : (properties.map Property.name).Nodup) (hp : p ∈ properties)
    (haccepted : (properties.foldl (checkProperty mode) checked).failures = []) :
    let after := (properties.foldl (checkProperty mode) checked).bag
    (∀ value, checked.bag.present? p.name = some value →
      ∃ result, coerce p.type value = .ok result ∧ after.present? p.name = some result) ∧
      (checked.bag.present? p.name = none →
        ¬(mode = .create ∧ p.required) ∧ after.present? p.name = none) := by
  induction properties generalizing checked with
  | nil => simp at hp
  | cons q rest ih =>
    rw [List.map_cons, List.nodup_cons] at hnodup
    intro after
    rcases List.mem_cons.mp hp with rfl | hp
    · have hafter : after.present? p.name = (checkProperty mode checked p).bag.present? p.name :=
        present?_congr (get?_foldl_checkProperty hnodup.1)
      rw [hafter]
      exact present?_checkProperty (failures_eq_nil_of_foldl haccepted)
    · have hne : q.name ≠ p.name := fun hname => hnodup.1 (hname ▸ List.mem_map_of_mem hp)
      rw [← present?_congr (@get?_checkProperty p.name mode checked q hne)]
      exact ih hnodup.2 hp haccepted

end

/-- What is noted stands under the reserved key. -/
theorem get?_markDefaulted_note {names : List String} (h : names ≠ []) :
    KeyedList.get? (markDefaulted bag names) defaultedKey = some (.list (names.map .string)) := by
  unfold markDefaulted
  rw [if_neg (by simp [h]), KeyedList.get?_put, if_pos rfl]

/-- Where nothing is noted, or not under this key, the key keeps what it has. -/
theorem get?_markDefaulted_other {names : List String} (h : names = [] ∨ key ≠ defaultedKey) :
    KeyedList.get? (markDefaulted bag names) key = KeyedList.get? bag key := by
  rcases h with rfl | hkey
  · rfl
  · exact get?_markDefaulted hkey names

/-- What is there is still there once names are noted, be it the note itself. -/
theorem isSome_markDefaulted {names : List String} (h : (bag.present? key).isSome) :
    ((markDefaulted bag names).present? key).isSome := by
  by_cases hkey : names = [] ∨ key ≠ defaultedKey
  · rw [present?_congr (get?_markDefaulted_other hkey)]
    exact h
  · simp only [not_or, Decidable.not_not] at hkey
    rw [hkey.2, Bag.present?, get?_markDefaulted_note hkey.1]
    rfl

section

variable {mode : ValidationMode} {after : Bag} (h : validate mode model bag = .ok after)

include h

/-- A bag that is accepted has its properties coerced, and those that were left out left out; none
of these is needed. -/
theorem present?_of_validate (hp : p ∈ model.properties) :
    (∀ value, bag.present? p.name = some value →
      ∃ result, coerce p.type value = .ok result ∧ after.present? p.name = some result) ∧
      (bag.present? p.name = none →
        ¬(mode = .create ∧ p.required) ∧ after.present? p.name = none) := by
  have haccepted : (model.properties.foldl (checkProperty mode) { bag := bag }).failures = [] := by
    unfold validate Checked.result at h
    split at h
    · next hempty => exact List.isEmpty_iff.mp hempty
    · cases h
  rw [eq_bag_of_result h]
  exact present?_foldl_checkProperty model.properties_nodup hp haccepted

/-- A property that is there is there in the bag that is accepted. -/
theorem isSome_of_validate (hp : p ∈ model.properties) (hthere : (bag.present? p.name).isSome) :
    (after.present? p.name).isSome := by
  obtain ⟨value, hvalue⟩ := Option.isSome_iff_exists.mp hthere
  obtain ⟨result, -, hresult⟩ := (present?_of_validate h hp).1 value hvalue
  rw [hresult]
  rfl

/-- A bag that is accepted has what it had under keys that are not declared. -/
theorem get?_of_validate (hkey : key ∉ model.properties.map Property.name) :
    KeyedList.get? after key = KeyedList.get? bag key := by
  rw [eq_bag_of_result h]
  exact get?_foldl_checkProperty hkey

/-- A list is let through. -/
theorem get?_of_validate_list {items : List Value}
    (hlist : KeyedList.get? bag key = some (.list items)) :
    KeyedList.get? after key = some (.list items) := by
  by_cases hkey : key ∈ model.properties.map Property.name
  · obtain ⟨p, hp, rfl⟩ := List.mem_map.mp hkey
    have hpresent : bag.present? p.name = some (.list items) := by
      rw [Bag.present?, hlist]
      rfl
    obtain ⟨result, hcoerce, hresult⟩ := (present?_of_validate h hp).1 _ hpresent
    rw [coerce_list hcoerce] at hresult
    exact (present?_eq_some.mp hresult).1
  · rw [get?_of_validate h hkey, hlist]

end

/-- What a bag holds once its properties are prepared. The note names the properties that got a
value by default; if it names any, it stands under the reserved key, in the place of what may have
been there. -/
structure Filled (model : EntityType) (bag : Bag) (note : List String) (after : Bag) : Prop where
  /-- What is noted was left out, has a default, and is there now. -/
  noted : ∀ name ∈ note, bag.present? name = none ∧ (after.present? name).isSome ∧
    ∃ p ∈ model.properties, p.name = name ∧ p.hasDefault
  /-- The note is under the reserved key. -/
  marked : note ≠ [] → KeyedList.get? after defaultedKey = some (.list (note.map .string))
  /-- What was there is coerced. -/
  given : ∀ p ∈ model.properties, (note = [] ∨ p.name ≠ defaultedKey) →
    ∀ value, bag.present? p.name = some value →
      ∃ result, coerce p.type value = .ok result ∧ after.present? p.name = some result
  /-- What was left out and is not noted is still left out. -/
  missing : ∀ p ∈ model.properties, (note = [] ∨ p.name ≠ defaultedKey) →
    bag.present? p.name = none → p.name ∉ note → after.present? p.name = none
  /-- What is not declared is left alone. -/
  other : ∀ key ∉ model.properties.map Property.name, (note = [] ∨ key ≠ defaultedKey) →
    KeyedList.get? after key = KeyedList.get? bag key

/-- The names of the properties that a bag leaves out and that are there once it is filled in. -/
def noteOf (model : EntityType) (bag filled : Bag) : List String :=
  ((model.properties.filter fun p => (bag.present? p.name).isNone).map Property.name).filter
    fun name => (filled.present? name).isSome

/-- The names that are noted are those of properties that were left out and are there now. -/
theorem mem_noteOf {filled : Bag} {name : String} :
    name ∈ noteOf model bag filled ↔ ∃ p ∈ model.properties, p.name = name ∧
      bag.present? p.name = none ∧ (filled.present? p.name).isSome := by
  simp only [noteOf, List.mem_filter, List.mem_map, Option.isNone_iff_eq_none]
  constructor
  · rintro ⟨⟨p, ⟨hp, hmissing⟩, rfl⟩, hsome⟩
    exact ⟨p, hp, rfl, hmissing, hsome⟩
  · rintro ⟨p, hp, rfl, hmissing, hsome⟩
    exact ⟨⟨p, ⟨hp, hmissing⟩, rfl⟩, hsome⟩

/-- If generators give no nulls, the names that are noted depend only on what the bag leaves out. -/
theorem noteOf_eq_filledNames {filled : Bag} (hfill : ∀ p ∈ model.properties,
      bag.present? p.name = none → Fills p (filled.present? p.name))
    (hnever : ∀ p ∈ model.properties, p.NeverNull) :
    noteOf model bag filled = filledNames model bag := by
  rw [noteOf, filledNames, List.filter_map, List.filter_filter]
  congr 1
  refine List.filter_congr fun p hp => ?_
  cases hmissing : bag.present? p.name with
  | some value => simp
  | none => simpa using (hfill p hp hmissing).isFilled (hnever p hp)

/-- What is filled in, noted and then accepted is filled. -/
theorem filled_of_validate {filled after : Bag} {mode : ValidationMode}
    (hkept : ∀ p ∈ model.properties, ∀ value,
      bag.present? p.name = some value → filled.present? p.name = some value)
    (hfill : ∀ p ∈ model.properties,
      bag.present? p.name = none → Fills p (filled.present? p.name))
    (hother : ∀ key ∉ model.properties.map Property.name,
      KeyedList.get? filled key = KeyedList.get? bag key)
    (hvalid : validate mode model (markDefaulted filled (noteOf model bag filled)) = .ok after) :
    Filled model bag (noteOf model bag filled) after := by
  generalize hnote : noteOf model bag filled = note at hvalid ⊢
  have hunmarked : ∀ key, (note = [] ∨ key ≠ defaultedKey) →
      (markDefaulted filled note).present? key = filled.present? key :=
    fun key hkey => present?_congr (get?_markDefaulted_other hkey)
  constructor
  case noted =>
    intro name hname
    obtain ⟨p, hp, rfl, hmissing, hsome⟩ := mem_noteOf.mp (hnote ▸ hname)
    refine ⟨hmissing, ?_, p, hp, rfl, (hfill p hp hmissing).default hsome⟩
    exact isSome_of_validate hvalid hp (isSome_markDefaulted hsome)
  case marked =>
    exact fun hne => get?_of_validate_list hvalid (get?_markDefaulted_note hne)
  case given =>
    intro p hp hkey value hvalue
    apply (present?_of_validate hvalid hp).1
    rw [hunmarked _ hkey]
    exact hkept p hp value hvalue
  case missing =>
    intro p hp hkey hmissing hname
    refine ((present?_of_validate hvalid hp).2 ?_).2
    rw [hunmarked _ hkey]
    refine Decidable.byContradiction fun hsome => hname (hnote ▸ mem_noteOf.mpr ?_)
    exact ⟨p, hp, rfl, hmissing, Option.isSome_iff_ne_none.mpr hsome⟩
  case other =>
    intro key hdeclared hkey
    rw [get?_of_validate hvalid hdeclared, get?_markDefaulted_other hkey, hother key hdeclared]

/-- The preparation of properties fills them in, one by one, marks the bag with the names of those
that were filled in, and checks it as that of a new entity. -/
theorem exists_validated {after : Bag} (h : (prepareProperties model bag).Yields after) :
    ∃ filled : Bag,
      (∀ p ∈ model.properties,
        (∀ value, bag.present? p.name = some value → filled.present? p.name = some value) ∧
        (bag.present? p.name = none → Fills p (filled.present? p.name))) ∧
      (∀ key ∉ model.properties.map Property.name,
        KeyedList.get? filled key = KeyedList.get? bag key) ∧
      validate .create model (markDefaulted filled (noteOf model bag filled)) = .ok after := by
  obtain ⟨marked, hmarked, h⟩ := h.of_bind
  obtain ⟨supply, rfl⟩ := hmarked.of_lift
  refine ⟨((applyDefaults model bag).run supply).1, fun p hp => ?_, fun key hkey => ?_, ?_⟩
  · exact present?_foldlM_applyDefault model.properties_nodup hp supply
  · exact get?_foldlM_applyDefault hkey supply
  · exact h.of_ofValidation

/-- The preparation of properties fills them in, and notes the same names from whatever supply if
generators give no nulls. -/
theorem exists_filled {after : Bag} (h : (prepareProperties model bag).Yields after) :
    ∃ note, Filled model bag note after ∧
      ((∀ p ∈ model.properties, p.NeverNull) → note = filledNames model bag) := by
  obtain ⟨filled, hproperty, hother, hvalid⟩ := exists_validated h
  have hfill : ∀ p ∈ model.properties,
      bag.present? p.name = none → Fills p (filled.present? p.name) :=
    fun p hp => (hproperty p hp).2
  refine ⟨noteOf model bag filled, ?_, noteOf_eq_filledNames hfill⟩
  exact filled_of_validate (fun p hp => (hproperty p hp).1) hfill hother hvalid

/-- The value is one of the declared type, which a coercion leaves as it is. -/
def Property.Accepts (p : Property) (value : Value) : Prop :=
  coerce p.type value = .ok value

/-- What a bag holds once it was defaulted and checked as that of a new entity. -/
structure Prepared (model : EntityType) (bag : Bag) : Prop where
  /-- Declared properties have values of their types. -/
  accepted : ∀ p ∈ model.properties, ∀ value, bag.present? p.name = some value → p.Accepts value
  /-- Required properties have a value. -/
  required : ∀ p ∈ model.properties, p.required → (bag.present? p.name).isSome
  /-- So have those with a default. -/
  defaulted : ∀ p ∈ model.properties, p.NeverNull → p.isFilled → (bag.present? p.name).isSome

/-- The preparation of properties comes to a prepared bag. -/
theorem prepared_of_prepareProperties {after : Bag}
    (h : (prepareProperties model bag).Yields after) : Prepared model after := by
  obtain ⟨filled, hproperty, -, hvalid⟩ := exists_validated h
  constructor
  case accepted =>
    intro p hp value hvalue
    cases hmarked : (markDefaulted filled (noteOf model bag filled)).present? p.name with
    | none =>
      obtain ⟨-, hnone⟩ := (present?_of_validate hvalid hp).2 hmarked
      rw [hnone] at hvalue
      cases hvalue
    | some given =>
      obtain ⟨result, hcoerce, hresult⟩ := (present?_of_validate hvalid hp).1 given hmarked
      rw [hresult] at hvalue
      cases hvalue
      exact coerce_of_coerce hcoerce
  case required =>
    intro p hp hrequired
    refine isSome_of_validate hvalid hp (Option.isSome_iff_ne_none.mpr fun hnone => ?_)
    exact ((present?_of_validate hvalid hp).2 hnone).1 ⟨rfl, hrequired⟩
  case defaulted =>
    intro p hp hnever hfilled
    refine isSome_of_validate hvalid hp (isSome_markDefaulted ?_)
    cases hgiven : bag.present? p.name with
    | none => rw [((hproperty p hp).2 hgiven).isFilled hnever, hfilled]
    | some value =>
      rw [(hproperty p hp).1 value hgiven]
      rfl

end GraphMapper
