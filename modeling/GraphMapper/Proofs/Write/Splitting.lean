import GraphMapper.Proofs.Schema.Declarations
import GraphMapper.Proofs.Value
import GraphMapper.Write.Split

/-!
# Where a property is written

Each part of a split is made of what the properties add to it (`part_splitProperties`), and so holds
under a key the value that the bag has there, if the key declares a property that is written in that
part (`get?_splitProperties`). From it follows when a part holds anything at all
(`part_ne_nil_iff`). The parts together hold every declared property that has a value, each of them
once (`entries_splitProperties`, `mem_entries_splitProperties`).
-/

namespace GraphMapper

/-- What a split holds in a part. -/
def Split.part (split : Split) : Part → Bag
  | .inline => split.inline
  | .onCreate => split.onCreate
  | .set => split.set

/-- An addition changes its own part alone. -/
theorem Split.part_add (split : Split) (part other : Part) (key : String) (value : Value) :
    (split.add part key value).part other =
      if part = other then KeyedList.put (split.part other) key value else split.part other := by
  cases part <;> cases other <;> rfl

/-- The names in a value under the reserved key. -/
def Value.noted : Value → List String
  | .list items => items.filterMap Value.string?
  | _ => []

/-- The names that a bag notes are those in what is under the reserved key. -/
theorem defaultedNames_eq (bag : Bag) :
    defaultedNames bag = ((KeyedList.get? bag defaultedKey).map Value.noted).getD [] := by
  unfold defaultedNames
  cases KeyedList.get? bag defaultedKey with
  | none => rfl
  | some value => cases value <;> rfl

/-- Bags with the same under the reserved key note the same names, and so do bags with nothing or a
null there. -/
theorem defaultedNames_congr {bag other : Bag}
    (h : other.present? defaultedKey = bag.present? defaultedKey) :
    defaultedNames other = defaultedNames bag := by
  have hread : ∀ b : Bag, defaultedNames b =
      ((b.present? defaultedKey).map Value.noted).getD [] := by
    intro b
    rw [defaultedNames_eq, Bag.present?]
    cases KeyedList.get? b defaultedKey with
    | none => rfl
    | some value => cases value <;> rfl
  rw [hread, hread, h]

/-- A note is read back. -/
theorem defaultedNames_of_marked {bag : Bag} {names : List String}
    (h : KeyedList.get? bag defaultedKey = some (.list (names.map .string))) :
    defaultedNames bag = names := by
  simp [defaultedNames, h, List.filterMap_map, Function.comp_def, Value.string?]

section

variable {mode : WriteMode} {model : EntityType} {bag : Bag}

/-- What a property adds to a part: its value, if it is written there. -/
def entryIn (mode : WriteMode) (model : EntityType) (bag : Bag) (part : Part) (p : Property) :
    Option (String × Value) :=
  if partOf mode model bag p = part then (bag.present? p.name).map (p.name, ·) else none

/-- The split of some of the properties adds to a part what each of them adds. -/
theorem part_foldl_split (part : Part) (properties : List Property) (split : Split) :
    (properties.foldl (Split.addProperty mode model bag) split).part part =
      (properties.filterMap (entryIn mode model bag part)).foldl
        (fun entries pair => KeyedList.put entries pair.1 pair.2) (split.part part) := by
  induction properties generalizing split with
  | nil => rfl
  | cons p rest ih =>
    rw [List.foldl_cons, ih, List.filterMap_cons, Split.addProperty, entryIn]
    cases bag.present? p.name with
    | none => simp
    | some value =>
      by_cases hpart : partOf mode model bag p = part <;> simp [Split.part_add, hpart]

/-- A part of a split is made of what each property adds to it. -/
theorem part_splitProperties (part : Part) :
    (splitProperties mode model bag).part part =
      KeyedList.ofPairs (model.properties.filterMap (entryIn mode model bag part)) := by
  have hempty : ({} : Split).part part = [] := by cases part <;> rfl
  rw [splitProperties, part_foldl_split, hempty]
  rfl

/-- What a bag has under a key for a property that is written in the part. -/
def heldIn (mode : WriteMode) (model : EntityType) (bag : Bag) (part : Part) (key : String) :
    Option Value :=
  (model.property? key).bind fun p =>
    if partOf mode model bag p = part then bag.present? key else none

/-- What is held under a key is what the property of that name adds. -/
theorem heldIn_eq_some {part : Part} {key : String} {value : Value} :
    heldIn mode model bag part key = some value ↔
      (key, value) ∈ model.properties.filterMap (entryIn mode model bag part) := by
  rw [heldIn, Option.bind_eq_some_iff, List.mem_filterMap]
  constructor
  · rintro ⟨p, hp, hvalue⟩
    obtain ⟨hmem, rfl⟩ := EntityType.of_property?_eq_some hp
    refine ⟨p, hmem, ?_⟩
    split at hvalue
    · next hpart => rw [entryIn, if_pos hpart, hvalue, Option.map_some]
    · cases hvalue
  · rintro ⟨p, hp, hentry⟩
    unfold entryIn at hentry
    split at hentry
    · next hpart =>
      obtain ⟨_, hvalue, hpair⟩ := Option.map_eq_some_iff.mp hentry
      cases hpair
      exact ⟨p, EntityType.property?_of_mem hp, by rw [if_pos hpart, hvalue]⟩
    · cases hentry

/-- A part of a split holds, under a key, what the bag has there for a property of that part. -/
theorem get?_splitProperties (part : Part) (key : String) :
    KeyedList.get? ((splitProperties mode model bag).part part) key =
      (model.property? key).bind fun p =>
        if partOf mode model bag p = part then bag.present? key else none := by
  change _ = heldIn mode model bag part key
  rw [part_splitProperties, KeyedList.get?_ofPairs fun pair hpair => heldIn_eq_some.mpr hpair]
  split
  · rfl
  · next hkey =>
    refine (Option.eq_none_iff_forall_ne_some.mpr fun value hsome => hkey ?_).symm
    exact List.mem_map_of_mem (heldIn_eq_some.mp hsome)

/-- A part of a split holds something when some property with a value is written there. -/
theorem part_ne_nil_iff {part : Part} :
    (splitProperties mode model bag).part part ≠ [] ↔
      ∃ p ∈ model.properties, (bag.present? p.name).isSome ∧ partOf mode model bag p = part := by
  rw [KeyedList.ne_nil_iff]
  constructor
  · rintro ⟨key, value, h⟩
    rw [get?_splitProperties] at h
    obtain ⟨p, hp, h⟩ := Option.bind_eq_some_iff.mp h
    obtain ⟨hmem, rfl⟩ := EntityType.of_property?_eq_some hp
    split at h
    · next hpart => exact ⟨p, hmem, by simp [h], hpart⟩
    · cases h
  · rintro ⟨p, hmem, hsome, hpart⟩
    obtain ⟨value, hvalue⟩ := Option.isSome_iff_exists.mp hsome
    refine ⟨p.name, value, ?_⟩
    rw [get?_splitProperties, EntityType.property?_of_mem hmem]
    simp [hpart, hvalue]

/-- The parts of a split are in order. -/
theorem part_ascending {part : Part} :
    KeyedList.Ascending ((splitProperties mode model bag).part part) := by
  rw [part_splitProperties]
  exact KeyedList.ofPairs_ascending _

/-- No key is in two parts of a split. -/
theorem not_mem_other_part {part other : Part} {key : String} (hne : part ≠ other)
    (hkey : key ∈ KeyedList.keys ((splitProperties mode model bag).part part)) :
    key ∉ KeyedList.keys ((splitProperties mode model bag).part other) := by
  rw [← KeyedList.isSome_get?_iff, get?_splitProperties] at hkey
  rw [← KeyedList.get?_eq_none_iff, get?_splitProperties]
  cases hp : model.property? key with
  | none => rfl
  | some p =>
    rw [hp, Option.bind_some] at hkey
    split at hkey
    · next hpart => rw [Option.bind_some, if_neg (hpart ▸ hne)]
    · cases hkey

/-- A creation writes everything in the pattern. -/
theorem onCreate_of_create : (splitProperties .create model bag).onCreate = [] := by
  refine Decidable.byContradiction fun h => ?_
  obtain ⟨p, -, -, hpart⟩ := (@part_ne_nil_iff .create model bag .onCreate).mp h
  cases hpart

/-- The keys by which a merge may find an entity: the merge fields of its type or, for a type that
has none, every property. -/
def EntityType.identifyingKeys (model : EntityType) : List String :=
  if model.mergeFields.isEmpty then model.properties.map Property.name else model.mergeFields

/-- Whether a bag has a value by which a merge may find the entity. -/
def givesKey (model : EntityType) (bag : Bag) : Bool :=
  model.identifyingKeys.any fun key => (bag.present? key).isSome

/-- A merge finds an entity by what the caller gave. -/
theorem isKeyed_iff :
    isKeyed model bag ↔ ∃ key ∈ model.identifyingKeys, isSupplied bag key := by
  unfold isKeyed EntityType.identifyingKeys
  split
  · simp only [List.any_eq_true, List.mem_map]
    constructor
    · rintro ⟨p, hp, hsupplied⟩
      exact ⟨p.name, ⟨p, hp, rfl⟩, hsupplied⟩
    · rintro ⟨key, ⟨p, hp, rfl⟩, hsupplied⟩
      exact ⟨p, hp, hsupplied⟩
  · exact List.any_eq_true

/-- What a merge may find an entity by is the name of a property. -/
theorem exists_property_of_mem_identifyingKeys {key : String}
    (h : key ∈ model.identifyingKeys) : ∃ p ∈ model.properties, p.name = key := by
  unfold EntityType.identifyingKeys at h
  split at h
  · exact List.mem_map.mp h
  · exact EntityType.exists_property_of_mem_mergeFields h

/-- All entries of a split, part by part. -/
def Split.entries (split : Split) : Bag :=
  split.inline ++ split.onCreate ++ split.set

/-- The declared properties of a bag that have a value. -/
def declaredEntries (model : EntityType) (bag : Bag) : Bag :=
  model.properties.filterMap fun p => (bag.present? p.name).map (p.name, ·)

/-- An addition under a new key is one entry more. -/
theorem Split.entries_add {split : Split} {key : String}
    (h : key ∉ KeyedList.keys split.entries) (part : Part) (value : Value) :
    (split.add part key value).entries.Perm ((key, value) :: split.entries) := by
  simp only [entries, KeyedList.keys, List.map_append, List.mem_append, not_or] at h ⊢
  obtain ⟨⟨hinline, honCreate⟩, hset⟩ := h
  cases part with
  | inline => exact ((KeyedList.put_perm hinline value).append_right _).append_right _
  | onCreate =>
    exact (((KeyedList.put_perm honCreate value).append_left _).trans
      List.perm_middle).append_right _
  | set => exact ((KeyedList.put_perm hset value).append_left _).trans List.perm_middle

/-- Properties that are added to a split are one entry more each, if they have a value. -/
theorem entries_foldl_split (properties : List Property)
    (hnodup : (properties.map Property.name).Nodup) (split : Split)
    (hnew : ∀ p ∈ properties, p.name ∉ KeyedList.keys split.entries) :
    (properties.foldl (Split.addProperty mode model bag) split).entries.Perm
      (split.entries ++
        properties.filterMap fun p => (bag.present? p.name).map (p.name, ·)) := by
  induction properties generalizing split with
  | nil => simp
  | cons p rest ih =>
    rw [List.map_cons, List.nodup_cons] at hnodup
    have hrest : ∀ q ∈ rest, q.name ∉ KeyedList.keys split.entries := fun q hq =>
      hnew q (List.mem_cons_of_mem _ hq)
    rw [List.foldl_cons, Split.addProperty]
    cases hvalue : bag.present? p.name with
    | none =>
      rw [List.filterMap_cons_none (by simp [hvalue])]
      exact ih hnodup.2 split hrest
    | some value =>
      rw [List.filterMap_cons_some (by simp [hvalue]; rfl)]
      have hadd := Split.entries_add (hnew p List.mem_cons_self) (partOf mode model bag p) value
      -- The names of the rest are neither old keys nor the new one.
      have hrest' : ∀ q ∈ rest, q.name ∉
          KeyedList.keys (split.add (partOf mode model bag p) p.name value).entries := by
        intro q hq hmem
        rcases List.mem_cons.mp ((hadd.map Prod.fst).subset hmem) with hname | hmem
        · exact hnodup.1 (List.mem_map.mpr ⟨q, hq, hname⟩)
        · exact hrest q hq hmem
      exact ((ih hnodup.2 _ hrest').trans (hadd.append_right _)).trans List.perm_middle.symm

/-- The parts of a split hold every declared property that has a value, once. -/
theorem entries_splitProperties :
    (splitProperties mode model bag).entries.Perm (declaredEntries model bag) :=
  entries_foldl_split model.properties model.properties_nodup {} (by simp [KeyedList.keys,
    Split.entries])

/-- A split has under the name of a declared property the value that the bag has there, and has
nothing else. -/
theorem mem_entries_splitProperties {entry : String × Value} :
    entry ∈ (splitProperties mode model bag).entries ↔
      ∃ p ∈ model.properties, p.name = entry.1 ∧ bag.present? p.name = some entry.2 := by
  rw [entries_splitProperties.mem_iff, declaredEntries, List.mem_filterMap]
  refine exists_congr fun p => and_congr_right fun _ => ?_
  rw [Option.map_eq_some_iff]
  constructor
  · rintro ⟨value, hvalue, rfl⟩
    exact ⟨rfl, hvalue⟩
  · rintro ⟨hname, hvalue⟩
    exact ⟨entry.2, hvalue, Prod.ext hname rfl⟩

/-- No entry of a split is a null. -/
theorem isNull_of_mem_entries {entry : String × Value}
    (h : entry ∈ (splitProperties mode model bag).entries) : entry.2.isNull = false := by
  obtain ⟨p, -, -, hvalue⟩ := mem_entries_splitProperties.mp h
  exact (present?_eq_some.mp hvalue).2

/-- No part of a split holds a null. -/
theorem isNull_of_mem_split {part : Part} {entry : String × Value}
    (h : entry ∈ (splitProperties mode model bag).part part) : entry.2.isNull = false := by
  refine @isNull_of_mem_entries mode model bag entry ?_
  cases part <;> simp only [Split.part] at h <;> simp [Split.entries, h]

end

end GraphMapper
