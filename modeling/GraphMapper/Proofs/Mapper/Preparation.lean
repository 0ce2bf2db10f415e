import GraphMapper.Proofs.Mapper.Preparing

/-!
# What a preparation leaves alone

Defaults and checks concern the declared properties of a type, whose names are not those of its
relationships, and the note of what was filled in stands under a reserved key; every other key keeps
what it has (`get?_of_prepareProperties`). Under the key of a relationship to a registered type a
preparation changes what `prepareItem` changes of each item, and nothing else.
-/

namespace GraphMapper

open Preparing

variable {model : EntityType} {rel : Relationship} {bag : Bag} {key : String}

/-- A default is filled in under the name of its property. -/
theorem get?_applyDefault {p : Property} (hkey : p.name ≠ key) (supply : Supply) :
    KeyedList.get? ((applyDefault bag p).run supply).1 key = KeyedList.get? bag key := by
  unfold applyDefault
  split
  · rfl
  · split
    · exact (KeyedList.get?_put bag p.name key _).trans (if_neg hkey)
    · exact (KeyedList.get?_put bag p.name key _).trans (if_neg hkey)
    · rfl

/-- Defaults are filled in under the names of the properties. -/
theorem get?_foldlM_applyDefault {properties : List Property}
    (hkey : key ∉ properties.map Property.name) (supply : Supply) :
    KeyedList.get? ((properties.foldlM applyDefault bag : StateM Supply Bag).run supply).1 key =
      KeyedList.get? bag key := by
  induction properties generalizing bag supply with
  | nil => rfl
  | cons p rest ih =>
    rw [List.map_cons, List.mem_cons, not_or] at hkey
    rw [List.foldlM_cons, StateT.run_bind]
    exact (ih hkey.2 _).trans (get?_applyDefault (Ne.symm hkey.1) supply)

/-- Names are noted under the reserved key. -/
theorem get?_markDefaulted (hkey : key ≠ defaultedKey) (names : List String) :
    KeyedList.get? (markDefaulted bag names) key = KeyedList.get? bag key := by
  unfold markDefaulted
  split
  · rfl
  · rw [KeyedList.get?_put, if_neg (Ne.symm hkey)]

/-- What a check changes is under the name of its property. -/
theorem get?_checkProperty {mode : ValidationMode} {checked : Checked} {p : Property}
    (hkey : p.name ≠ key) :
    KeyedList.get? (checkProperty mode checked p).bag key = KeyedList.get? checked.bag key := by
  unfold checkProperty Checked.refuse
  dsimp only
  split
  · split
    · simp [KeyedList.get?_remove, hkey]
    · rfl
  · split
    · simp [KeyedList.get?_put, KeyedList.get?_remove, hkey]
    · simp [KeyedList.get?_remove, hkey]

/-- What checks change is under the names of the properties. -/
theorem get?_foldl_checkProperty {mode : ValidationMode} {properties : List Property}
    {checked : Checked} (hkey : key ∉ properties.map Property.name) :
    KeyedList.get? (properties.foldl (checkProperty mode) checked).bag key =
      KeyedList.get? checked.bag key := by
  induction properties generalizing checked with
  | nil => rfl
  | cons p rest ih =>
    rw [List.map_cons, List.mem_cons, not_or] at hkey
    rw [List.foldl_cons, ih hkey.2, get?_checkProperty (Ne.symm hkey.1)]

/-- What is accepted is the bag that was checked. -/
theorem eq_bag_of_result {checked : Checked} {result : Bag} (h : checked.result = .ok result) :
    result = checked.bag := by
  unfold Checked.result at h
  split at h
  · cases h
    rfl
  · cases h

/-- The preparation of properties leaves every other key alone, but for the reserved one. -/
theorem get?_of_prepareProperties {prepared : Bag}
    (h : (prepareProperties model bag).Yields prepared)
    (hkey : key ∉ model.properties.map Property.name) (hreserved : key ≠ defaultedKey) :
    KeyedList.get? prepared key = KeyedList.get? bag key := by
  obtain ⟨filled, hfilled, h⟩ := h.of_bind
  obtain ⟨supply, rfl⟩ := hfilled.of_lift
  rw [eq_bag_of_result h.of_ofValidation, get?_foldl_checkProperty hkey]
  exact (get?_markDefaulted hreserved _).trans (get?_foldlM_applyDefault hkey supply)

/-- What is kept changes under the name of the property, and not under a key that is not given. -/
theorem get?_keepProperty {given : Bag} {kept : Checked} (p : Property)
    (hgiven : KeyedList.get? given key = none) :
    KeyedList.get? (keepProperty (given, kept) p).1 key = none ∧
      KeyedList.get? (keepProperty (given, kept) p).2.bag key = KeyedList.get? kept.bag key := by
  have hrest : KeyedList.get? (KeyedList.remove given p.name) key = none := by
    simp [KeyedList.get?_remove, hgiven]
  unfold keepProperty
  dsimp only
  cases hvalue : given.present? p.name with
  | none => exact ⟨hrest, rfl⟩
  | some value =>
    have hne : p.name ≠ key := by
      rintro rfl
      simp [Bag.present?, hgiven] at hvalue
    dsimp only
    cases coerce p.type value with
    | ok value => exact ⟨hrest, (KeyedList.get?_put kept.bag p.name key value).trans (if_neg hne)⟩
    | error refusal => exact ⟨hrest, rfl⟩

/-- While properties are taken, what is under a key that is not given stays as it is. -/
theorem get?_foldl_keepProperty {properties : List Property} {given : Bag} {kept : Checked}
    (hgiven : KeyedList.get? given key = none) :
    KeyedList.get? (properties.foldl keepProperty (given, kept)).2.bag key =
      KeyedList.get? kept.bag key := by
  induction properties generalizing given kept with
  | nil => rfl
  | cons p rest ih =>
    have hstep := @get?_keepProperty key given kept p hgiven
    rw [List.foldl_cons]
    cases hstate : keepProperty (given, kept) p with
    | mk left held =>
      rw [hstate] at hstep
      rw [ih hstep.1, hstep.2]

/-- What is kept of the bag of a relationship has the far node that the bag has. -/
theorem get?_nodeKey_of_relationshipBag {kept : Bag} (h : relationshipBag rel bag = .ok kept) :
    KeyedList.get? kept rel.nodeKey = KeyedList.get? bag rel.nodeKey := by
  have hgiven : KeyedList.get? (KeyedList.remove bag rel.nodeKey) rel.nodeKey = none := by
    simp [KeyedList.get?_remove]
  rw [eq_bag_of_result h, get?_foldl_keepProperty hgiven, farEntry]
  cases hnode : KeyedList.get? bag rel.nodeKey with
  | none => rfl
  | some node => simp [KeyedList.get?]

/-- An item that stands under its relationship itself is prepared as a far bag. -/
theorem direct_of_prepareItem {prepareFar : Bag → Preparing Bag} {after : Value}
    (hshape : rel.shape.isRelationship = false)
    (h : (prepareItem prepareFar rel (.map bag)).Yields after) :
    ∃ others, (prepareFar bag).Yields others ∧ after = .map others := by
  simp only [prepareItem, hshape, Bool.false_eq_true, if_false] at h
  obtain ⟨others, hothers, h⟩ := h.of_bind
  exact ⟨others, hothers, h.of_pure.symm⟩

/-- What is kept of the bag of a relationship gets its far node back, prepared, if that is a bag,
and has it taken out if it is not. -/
theorem kept_of_prepareItem {prepareFar : Bag → Preparing Bag} {after : Value}
    (hshape : rel.shape.isRelationship = true)
    (h : (prepareItem prepareFar rel (.map bag)).Yields after) :
    ∃ kept, relationshipBag rel bag = .ok kept ∧
      ((∃ entries others, KeyedList.get? bag rel.nodeKey = some (.map entries) ∧
        (prepareFar entries).Yields others ∧
        after = .map (KeyedList.put kept rel.nodeKey (.map others))) ∨
      (∀ entries, KeyedList.get? bag rel.nodeKey ≠ some (.map entries)) ∧
        after = .map (KeyedList.remove kept rel.nodeKey)) := by
  simp only [prepareItem, hshape, if_true] at h
  obtain ⟨kept, hkept, h⟩ := h.of_bind
  refine ⟨kept, hkept.of_ofValidation, ?_⟩
  rw [get?_nodeKey_of_relationshipBag hkept.of_ofValidation] at h
  split at h
  · next entries hnode =>
    obtain ⟨others, hothers, h⟩ := h.of_bind
    exact .inl ⟨entries, others, hnode, hothers.of_under, h.of_pure.symm⟩
  · next hnone => exact .inr ⟨hnone, h.of_pure.symm⟩

/-- Where the relationship is held, a far node that is a bag is prepared and put back, and any other
is taken out. -/
theorem held_of_prepareItem {prepareFar : Bag → Preparing Bag} {after : Value}
    (hshape : rel.shape.isRelationship = true)
    (h : (prepareItem prepareFar rel (.map bag)).Yields after) :
    ∃ kept, (∃ entries others, KeyedList.get? bag rel.nodeKey = some (.map entries) ∧
        (prepareFar entries).Yields others ∧
        after = .map (KeyedList.put kept rel.nodeKey (.map others))) ∨
      (∀ entries, KeyedList.get? bag rel.nodeKey ≠ some (.map entries)) ∧
        after = .map (KeyedList.remove kept rel.nodeKey) := by
  obtain ⟨kept, -, h⟩ := kept_of_prepareItem hshape h
  exact ⟨kept, h⟩

section

variable {registry : Registry} {prepareFar : EntityType → Bag → Preparing Bag} {after : Bag}

/-- What becomes of what is under the key of a relationship: it is prepared if the target is
registered, and left alone if it is not. -/
def PreparedUnder (registry : Registry) (prepareFar : EntityType → Bag → Preparing Bag)
    (rel : Relationship) (value prepared : Value) : Prop :=
  match registry.target? rel with
  | none => prepared = value
  | some target => (prepareRelated (prepareFar target) rel value).Yields prepared

/-- The preparation under one key leaves every other key alone. -/
theorem get?_of_prepareUnder (h : (prepareUnder registry prepareFar bag rel).Yields after)
    (hkey : rel.name ≠ key) : KeyedList.get? after key = KeyedList.get? bag key := by
  unfold prepareUnder at h
  split at h
  · obtain ⟨prepared, -, h⟩ := h.of_bind
    rw [← h.of_pure, KeyedList.get?_put, if_neg hkey]
  · rw [h.of_pure]

/-- What is under the key of a relationship is prepared. -/
theorem preparedUnder_of_prepareUnder {value : Value}
    (h : (prepareUnder registry prepareFar bag rel).Yields after)
    (hvalue : KeyedList.get? bag rel.name = some value) :
    ∃ prepared, KeyedList.get? after rel.name = some prepared ∧
      PreparedUnder registry prepareFar rel value prepared := by
  unfold prepareUnder at h
  unfold PreparedUnder
  rw [hvalue] at h
  cases htarget : registry.target? rel with
  | none =>
    rw [htarget] at h
    exact ⟨value, h.of_pure ▸ hvalue, rfl⟩
  | some target =>
    rw [htarget] at h
    obtain ⟨prepared, hprepared, h⟩ := h.of_bind
    exact ⟨prepared, by rw [← h.of_pure, KeyedList.get?_put, if_pos rfl], hprepared⟩

/-- The preparation under several keys leaves every other key alone. -/
theorem get?_of_foldlM_prepareUnder {rels : List Relationship}
    (h : (rels.foldlM (prepareUnder registry prepareFar) bag).Yields after)
    (hkey : key ∉ rels.map Relationship.name) :
    KeyedList.get? after key = KeyedList.get? bag key := by
  induction rels generalizing bag with
  | nil =>
    rw [List.foldlM_nil] at h
    rw [h.of_pure]
  | cons rel rest ih =>
    rw [List.map_cons, List.mem_cons, not_or] at hkey
    rw [List.foldlM_cons] at h
    obtain ⟨mid, hmid, h⟩ := h.of_bind
    rw [ih h hkey.2, get?_of_prepareUnder hmid (Ne.symm hkey.1)]

/-- What is under the key of each of several relationships is prepared. -/
theorem preparedUnder_of_foldlM_prepareUnder {rels : List Relationship} {value : Value}
    (h : (rels.foldlM (prepareUnder registry prepareFar) bag).Yields after)
    (hnodup : (rels.map Relationship.name).Nodup) (hrel : rel ∈ rels)
    (hvalue : KeyedList.get? bag rel.name = some value) :
    ∃ prepared, KeyedList.get? after rel.name = some prepared ∧
      PreparedUnder registry prepareFar rel value prepared := by
  induction rels generalizing bag with
  | nil => simp at hrel
  | cons head rest ih =>
    rw [List.map_cons, List.nodup_cons] at hnodup
    rw [List.foldlM_cons] at h
    obtain ⟨mid, hmid, hrest⟩ := h.of_bind
    rcases List.mem_cons.mp hrel with rfl | hrel
    · -- The other keys are no longer this one.
      obtain ⟨prepared, hprepared, hunder⟩ := preparedUnder_of_prepareUnder hmid hvalue
      exact ⟨prepared, by rw [get?_of_foldlM_prepareUnder hrest hnodup.1, hprepared], hunder⟩
    · have hne : head.name ≠ rel.name := fun hname =>
        hnodup.1 (hname ▸ List.mem_map_of_mem hrel)
      exact ih hrest hnodup.2 hrel (by rw [get?_of_prepareUnder hmid hne, hvalue])

/-- Above the last level, a preparation prepares what is under the key of a relationship, unless
that is the reserved key. -/
theorem preparedUnder_of_prepare {levels : Nat} {value : Value}
    (h : (prepare registry (levels + 1) model bag).Yields after) (hrel : rel ∈ model.relationships)
    (hreserved : rel.name ≠ defaultedKey) (hvalue : KeyedList.get? bag rel.name = some value) :
    ∃ prepared, KeyedList.get? after rel.name = some prepared ∧
      PreparedUnder registry (prepare registry levels) rel value prepared := by
  obtain ⟨checked, hchecked, h⟩ := h.of_bind
  have hkey := model.keys_disjoint rel.name (List.mem_map_of_mem hrel)
  refine preparedUnder_of_foldlM_prepareUnder h model.relationships_nodup hrel ?_
  rw [get?_of_prepareProperties hchecked hkey hreserved, hvalue]

end

end GraphMapper
