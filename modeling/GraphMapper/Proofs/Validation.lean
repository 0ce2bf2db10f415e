import GraphMapper.Proofs.KeyedList
import GraphMapper.Proofs.Mapper.Filling

/-!
# Validation settles a bag

A property is settled in a bag if it is there as a value of its declared type, or left out where it
may be (`Settled`). A check accepts what is settled and changes nothing (`checkProperty_of_settled`),
and everything is settled in a bag that was accepted (`settled_of_validate`). A bag that is
validated a second time is therefore accepted as it is (`coercion_settles`).
-/

namespace GraphMapper

variable {mode : ValidationMode} {bag checked : Bag} {p : Property}

/-- The property is there as a value of its declared type, or is left out and not needed. -/
structure Settled (mode : ValidationMode) (bag : Bag) (p : Property) : Prop where
  present : ∀ value, bag.present? p.name = some value → p.type.Holds value
  missing : bag.present? p.name = none → ¬(mode = .create ∧ p.required)

/-- A check accepts a property that is settled and leaves it where it is. -/
theorem checkProperty_of_settled (hascending : KeyedList.Ascending bag) (h : Settled mode bag p) :
    checkProperty mode { bag := bag } p = { bag := bag } := by
  unfold checkProperty
  cases hvalue : bag.present? p.name with
  | none => simp only [if_neg (h.missing hvalue)]
  | some value =>
    -- The property is taken out and put back with the value that it had.
    have hput := KeyedList.put_remove hascending (present?_eq_some.mp hvalue).1
    simp only [(h.present value hvalue).coerce, hput]

/-- A bag in which all properties are settled is accepted as it is. -/
theorem validate_of_settled {model : EntityType} (hascending : KeyedList.Ascending bag)
    (h : ∀ p ∈ model.properties, Settled mode bag p) : validate mode model bag = .ok bag := by
  have hfold : model.properties.foldl (checkProperty mode) { bag := bag } = { bag := bag } := by
    -- Every check starts from the bag itself, which the ones before it left alone.
    generalize model.properties = properties at h
    induction properties with
    | nil => rfl
    | cons p rest ih =>
      rw [List.foldl_cons, checkProperty_of_settled hascending (h p List.mem_cons_self)]
      exact ih fun q hq => h q (List.mem_cons_of_mem p hq)
  rw [validate, hfold]
  rfl

/-- In a bag that was accepted all properties are settled. -/
theorem settled_of_validate {model : EntityType} (h : validate mode model bag = .ok checked)
    (hp : p ∈ model.properties) : Settled mode checked p := by
  obtain ⟨hpresent, hmissing⟩ := present?_of_validate h hp
  cases hvalue : bag.present? p.name with
  | none =>
    obtain ⟨hneeded, hafter⟩ := hmissing hvalue
    refine ⟨fun value hsome => ?_, fun _ => hneeded⟩
    rw [hafter] at hsome
    cases hsome
  | some value =>
    obtain ⟨result, hcoerce, hafter⟩ := hpresent value hvalue
    refine ⟨fun other hsome => ?_, fun hnone => ?_⟩
    · cases hafter.symm.trans hsome
      exact holds_of_coerce hcoerce
    · rw [hafter] at hnone
      cases hnone

/-- A check keeps ascending keys ascending. -/
theorem checkProperty_ascending {checked : Checked} (h : KeyedList.Ascending checked.bag) :
    KeyedList.Ascending (checkProperty mode checked p).bag := by
  have hrest : KeyedList.Ascending (KeyedList.remove checked.bag p.name) :=
    KeyedList.remove_ascending h p.name
  unfold checkProperty
  dsimp only
  split
  · split
    · exact hrest
    · exact h
  · split
    · exact KeyedList.put_ascending hrest p.name _
    · exact hrest

/-- The keys of a bag that was accepted ascend, as they did before. -/
theorem validate_ascending {model : EntityType} (hascending : KeyedList.Ascending bag)
    (h : validate mode model bag = .ok checked) : KeyedList.Ascending checked := by
  rw [eq_bag_of_result h]
  have hfold (properties : List Property) (start : Checked)
      (hstart : KeyedList.Ascending start.bag) :
      KeyedList.Ascending (properties.foldl (checkProperty mode) start).bag := by
    induction properties generalizing start with
    | nil => exact hstart
    | cons p rest ih => exact ih _ (checkProperty_ascending hstart)
  exact hfold model.properties { bag := bag } hascending

/-- What is coerced is of the declared type, is null only if it was, and is left as it is by a
further coercion. A bag with ascending keys, as those of a map are, that was accepted is accepted as
it is in the same mode. -/
theorem coercion_settles :
    (∀ type value result, coerce type value = .ok result →
      type.Holds result ∧ (result.isNull → value.isNull) ∧ coerce type result = .ok result) ∧
    (∀ mode model (bag checked : Bag), KeyedList.Ascending bag →
      validate mode model bag = .ok checked →
      KeyedList.Ascending checked ∧ validate mode model checked = .ok checked) := by
  constructor
  · intro type value result h
    refine ⟨holds_of_coerce h, fun hnull => ?_, coerce_of_coerce h⟩
    by_contra hvalue
    rw [isNull_of_coerce h (Bool.eq_false_iff.mpr hvalue)] at hnull
    cases hnull
  · intro mode model bag checked hascending h
    have hchecked := validate_ascending hascending h
    exact ⟨hchecked, validate_of_settled hchecked fun p hp => settled_of_validate h hp⟩

/-- A sighting of an animal. -/
def sighting : EntityType where
  name := "Sighting"
  labels := ["Sighting"]
  properties := [Property.asPrimary { name := "id", type := .uuid },
    { name := "count", type := .integer }, { name := "place", type := .point }]
  relationships := []
  labels_ne_nil := by decide
  labels_ascending := by decide
  properties_nodup := by decide
  relationships_nodup := List.nodup_nil
  keys_disjoint := by decide
  primary_le_one := by decide

/-- A sighting as it may be given: the identifier is in capitals and without hyphens, the count is a
text, and the place is cleared. -/
def givenSighting : Bag :=
  [("count", .string " 42 "), ("id", .string "6BA7B8109DAD11D180B400C04FD430C8"), ("place", .null)]

/-- The same sighting once it is accepted. -/
def acceptedSighting : Bag :=
  [("count", .int 42), ("id", .string "6ba7b810-9dad-11d1-80b4-00c04fd430c8"), ("place", .null)]

/-- An identifier in another form is brought to its own, and an accepted sighting is accepted as it
is. -/
theorem acceptedSighting_settled :
    let given := Value.string "urn:uuid:6BA7B810-9DAD-11D1-80B4-00C04FD430C8"
    let kept := Value.string "6ba7b810-9dad-11d1-80b4-00c04fd430c8"
    (coerce .uuid given = .ok kept ∧ PropertyType.uuid.Holds kept ∧ coerce .uuid kept = .ok kept) ∧
    validate .create sighting givenSighting = .ok acceptedSighting ∧
    validate .create sighting acceptedSighting = .ok acceptedSighting := by
  intro given kept
  have hid : coerce .uuid given = .ok kept := by rfl
  have hsighting : validate .create sighting givenSighting = .ok acceptedSighting := by rfl
  have hascending : KeyedList.Ascending givenSighting := by
    unfold KeyedList.Ascending
    decide
  obtain ⟨hholds, -, hagain⟩ := coercion_settles.1 .uuid given kept hid
  exact ⟨⟨hid, hholds, hagain⟩, hsighting,
    (coercion_settles.2 .create sighting givenSighting acceptedSighting hascending hsighting).2⟩

end GraphMapper
