import GraphMapper.Proofs.Write.Identification
import Mathlib.Data.List.Basic

/-!
# A split is a partition

A split sends every declared property that a bag has a value for to one of three parts, and holds
nothing else (`Split.Partitions`). A creation has all of it in the pattern. In a merge two things
bear on where a property goes: what the caller gave to find the entity by stands in the pattern, and
what defaults filled in is kept out of it and of what is set in any case, as long as the caller gave
something to find the entity by (`Split.KeepsToGiven`).

Everything is read off `mem_keys_part`, which says which keys a part has, and off the cases of
`mergePart`. `splitProperties_partitions` puts it together.
-/

namespace GraphMapper

/-- The parts of a split are bags in order without a key in common, and hold together what the bag
has under the names of declared properties, and nothing else. -/
structure Split.Partitions (split : Split) (model : EntityType) (bag : Bag) : Prop where
  ascending : ∀ part, KeyedList.Ascending (split.part part)
  inline_onCreate : List.Disjoint (KeyedList.keys split.inline) (KeyedList.keys split.onCreate)
  inline_set : List.Disjoint (KeyedList.keys split.inline) (KeyedList.keys split.set)
  onCreate_set : List.Disjoint (KeyedList.keys split.onCreate) (KeyedList.keys split.set)
  held : ∀ key value, (key, value) ∈ split.entries ↔
    (∃ p ∈ model.properties, p.name = key) ∧ bag.present? key = some value

/-- A split keeps to what the caller gave: the merge fields among it stand in the pattern, and what
is noted as filled in is set on creation if the caller gave anything to find the entity by. -/
structure Split.KeepsToGiven (split : Split) (model : EntityType) (bag : Bag) : Prop where
  /-- A merge field that the caller gave is in the pattern. -/
  field : ∀ key ∈ model.mergeFields, isSupplied bag key → key ∈ KeyedList.keys split.inline
  /-- What is noted is in the pattern, or is set in any case, only if the caller gave nothing to
  find the entity by. -/
  noted : ∀ name ∈ defaultedNames bag,
    name ∈ KeyedList.keys split.inline ∨ name ∈ KeyedList.keys split.set →
    ∀ key ∈ model.identifyingKeys, isSupplied bag key = false
  /-- What is noted and has a value is set on creation if the caller gave something. -/
  onCreate : (∃ key ∈ model.identifyingKeys, isSupplied bag key) →
    ∀ p ∈ model.properties, p.name ∈ defaultedNames bag → (bag.present? p.name).isSome →
    p.name ∈ KeyedList.keys split.onCreate
  /-- Without merge fields nothing is set in any case. -/
  set : model.mergeFields = [] → split.set = []
  /-- Without merge fields all that the caller gave is in the pattern. -/
  given : model.mergeFields = [] → ∀ p ∈ model.properties, isSupplied bag p.name →
    p.name ∈ KeyedList.keys split.inline

variable {mode : WriteMode} {model : EntityType} {bag : Bag} {part other : Part} {p : Property}
  {key : String}

/-! ## The keys of the parts -/

/-- A part has the keys of the properties with a value that are written there. -/
theorem mem_keys_part :
    key ∈ KeyedList.keys ((splitProperties mode model bag).part part) ↔
      ∃ p ∈ model.properties, p.name = key ∧ (bag.present? key).isSome ∧
        partOf mode model bag p = part := by
  rw [← KeyedList.isSome_get?_iff, get?_splitProperties]
  constructor
  · intro h
    obtain ⟨value, hvalue⟩ := Option.isSome_iff_exists.mp h
    obtain ⟨p, hp, hheld⟩ := Option.bind_eq_some_iff.mp hvalue
    obtain ⟨hmem, hname⟩ := EntityType.of_property?_eq_some hp
    split at hheld
    · next hpart => exact ⟨p, hmem, hname, by rw [hheld]; rfl, hpart⟩
    · cases hheld
  · rintro ⟨p, hmem, rfl, hthere, hpart⟩
    rw [EntityType.property?_of_mem hmem, Option.bind_some, if_pos hpart]
    exact hthere

/-- The name of a declared property with a value is a key of the part in which it is written. -/
theorem name_mem_keys_part (hp : p ∈ model.properties) :
    p.name ∈ KeyedList.keys ((splitProperties mode model bag).part part) ↔
      (bag.present? p.name).isSome ∧ partOf mode model bag p = part := by
  rw [mem_keys_part]
  constructor
  · rintro ⟨q, hq, hname, hthere, hpart⟩
    obtain rfl := EntityType.eq_of_name_eq hq hp hname
    exact ⟨hthere, hpart⟩
  · exact fun ⟨hthere, hpart⟩ => ⟨p, hp, rfl, hthere, hpart⟩

/-- Different parts have no key in common. -/
theorem disjoint_keys_part (hparts : part ≠ other) :
    List.Disjoint (KeyedList.keys ((splitProperties mode model bag).part part))
      (KeyedList.keys ((splitProperties mode model bag).part other)) :=
  fun _ => not_mem_other_part hparts

/-- A split is a partition of what a bag has for the declared properties. -/
theorem partitions_splitProperties : (splitProperties mode model bag).Partitions model bag := by
  constructor
  case ascending => exact fun part => part_ascending
  case inline_onCreate => exact @disjoint_keys_part mode model bag .inline .onCreate (by decide)
  case inline_set => exact @disjoint_keys_part mode model bag .inline .set (by decide)
  case onCreate_set => exact @disjoint_keys_part mode model bag .onCreate .set (by decide)
  case held =>
    intro key value
    rw [mem_entries_splitProperties]
    constructor
    · rintro ⟨p, hp, rfl, hvalue⟩
      exact ⟨⟨p, hp, rfl⟩, hvalue⟩
    · rintro ⟨⟨p, hp, rfl⟩, hvalue⟩
      exact ⟨p, hp, rfl, hvalue⟩

/-! ## Where a merge writes a property -/

/-- What is noted is set on creation if the caller gave something to find the entity by. -/
theorem mergePart_of_noted (hkeyed : isKeyed model bag) (hnoted : p.name ∈ defaultedNames bag) :
    mergePart model bag p = .onCreate := by
  simp [mergePart, hkeyed, hnoted]

/-- What the caller gave, or what nothing that the caller gave stands in for, is in the pattern if
it may find the entity. -/
theorem mergePart_of_identifying (hnoted : ¬ (isKeyed model bag ∧ p.name ∈ defaultedNames bag))
    (hkey : p.name ∈ model.identifyingKeys) : mergePart model bag p = .inline := by
  rw [mergePart, if_neg hnoted]
  unfold EntityType.identifyingKeys at hkey
  split at hkey
  · next hfields => rw [if_pos hfields]
  · next hfields => rw [if_neg hfields, if_pos hkey]

/-- What is not noted is set on creation only if it may not change, and is no merge field. -/
theorem of_mergePart_eq_onCreate (hnoted : p.name ∉ defaultedNames bag)
    (h : mergePart model bag p = .onCreate) :
    model.mergeFields ≠ [] ∧ p.name ∉ model.mergeFields ∧ p.isWritable = false := by
  rw [mergePart, if_neg fun h => hnoted h.2] at h
  split at h
  · cases h
  split at h
  · cases h
  split at h
  · next hfields hfield hflags =>
    exact ⟨by simpa using hfields, hfield, by simp [Property.isWritable, hflags]⟩
  · cases h

/-- What the caller gave is not noted. -/
theorem not_mem_defaultedNames_of_isSupplied (h : isSupplied bag key) :
    key ∉ defaultedNames bag := by
  simp only [isSupplied, Bool.and_eq_true, Bool.not_eq_true', List.contains_eq_mem,
    decide_eq_false_iff_not] at h
  exact h.2

/-- What the caller gave has a value. -/
theorem isSome_present?_of_isSupplied (h : isSupplied bag key) : (bag.present? key).isSome := by
  rw [isSupplied, Bool.and_eq_true] at h
  exact h.1

/-- What the caller gave is in the pattern if it may find the entity. -/
theorem mem_inline_of_isSupplied (hp : p ∈ model.properties) (hsupplied : isSupplied bag p.name)
    (hkey : p.name ∈ model.identifyingKeys) :
    p.name ∈ KeyedList.keys (splitProperties .merge model bag).inline := by
  have hnoted := not_mem_defaultedNames_of_isSupplied hsupplied
  exact (@name_mem_keys_part .merge model bag .inline p hp).mpr
    ⟨isSome_present?_of_isSupplied hsupplied, mergePart_of_identifying (fun h => hnoted h.2) hkey⟩

/-- What is noted and is not set on creation is so because nothing that the caller gave finds the
entity. -/
theorem not_isKeyed_of_noted {name : String} (hnoted : name ∈ defaultedNames bag)
    (hkey : name ∈ KeyedList.keys ((splitProperties .merge model bag).part part))
    (hpart : part ≠ .onCreate) : ¬ isKeyed model bag := by
  intro hkeyed
  obtain ⟨p, -, rfl, -, hwritten⟩ := mem_keys_part.mp hkey
  exact hpart (hwritten.symm.trans (mergePart_of_noted hkeyed hnoted))

/-- A type without merge fields sets nothing in any case. -/
theorem set_of_no_mergeFields (hfields : model.mergeFields = []) :
    (splitProperties .merge model bag).set = [] := by
  refine Decidable.byContradiction fun h => ?_
  exact (setsProperty_of_set_ne_nil h).1 hfields

/-- A merge keeps to what the caller gave. -/
theorem keepsToGiven_splitProperties :
    (splitProperties .merge model bag).KeepsToGiven model bag := by
  constructor
  case field =>
    intro key hkey hsupplied
    obtain ⟨p, hp, rfl⟩ := EntityType.exists_property_of_mem_mergeFields hkey
    refine mem_inline_of_isSupplied hp hsupplied ?_
    have hfields : model.mergeFields ≠ [] := List.ne_nil_of_mem hkey
    simpa [EntityType.identifyingKeys, hfields] using hkey
  case noted =>
    intro name hnoted hkey key hidentifying
    have hkeyed : ¬ isKeyed model bag := by
      rcases hkey with hinline | hset
      · exact @not_isKeyed_of_noted model bag .inline name hnoted hinline (by decide)
      · exact @not_isKeyed_of_noted model bag .set name hnoted hset (by decide)
    rw [isKeyed_iff] at hkeyed
    exact Bool.eq_false_iff.mpr fun hsupplied => hkeyed ⟨key, hidentifying, hsupplied⟩
  case onCreate =>
    intro hgiven p hp hnoted hthere
    exact (@name_mem_keys_part .merge model bag .onCreate p hp).mpr
      ⟨hthere, mergePart_of_noted (isKeyed_iff.mpr hgiven) hnoted⟩
  case set => exact set_of_no_mergeFields
  case given =>
    intro hfields p hp hsupplied
    refine mem_inline_of_isSupplied hp hsupplied ?_
    simpa [EntityType.identifyingKeys, hfields] using ⟨p, hp, rfl⟩

/-- However an entity is written, its split is a partition of the declared properties that the bag
has a value for. A creation has all of them in the pattern, and a merge keeps to what the caller
gave. -/
theorem splitProperties_partitions (model : EntityType) (bag : Bag) :
    (∀ mode, (splitProperties mode model bag).Partitions model bag) ∧
      (splitProperties .create model bag).onCreate = [] ∧
      (splitProperties .create model bag).set = [] ∧
      (splitProperties .merge model bag).KeepsToGiven model bag := by
  have hset : (splitProperties .create model bag).set = [] := by
    refine Decidable.byContradiction fun h => ?_
    obtain ⟨p, -, -, hpart⟩ := (@part_ne_nil_iff .create model bag .set).mp h
    cases hpart
  exact ⟨fun _ => partitions_splitProperties, onCreate_of_create, hset,
    keepsToGiven_splitProperties⟩

end GraphMapper
