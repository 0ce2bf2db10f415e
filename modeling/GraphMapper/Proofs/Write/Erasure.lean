import GraphMapper.Proofs.Cypher.Twins
import GraphMapper.Proofs.Write.Planning
import GraphMapper.Proofs.Write.Splitting

/-!
# Plans without what is set on creation

Two plans that are equal once the values set on creation are erased write the same but for those
values (`erase_steps`). Two bags that agree on what was given, and in which the same properties were
filled in, are split alike: what was filled in is set on creation, and all other parts are equal
(`erase_splitProperties`).
-/

namespace GraphMapper

open Cypher

/-- A split without the values that are set on creation. -/
def Split.erase (split : Split) : Split :=
  { split with onCreate := KeyedList.mapValues (fun _ => .null) split.onCreate }

mutual

/-- A plan without the values that are set on creation. -/
def WritePlan.erase : WritePlan → WritePlan
  | .mk mode var labels split links => .mk mode var labels split.erase (eraseLinks links)

/-- Links without the values that are set on creation. -/
def eraseLinks : List WriteLink → List WriteLink
  | [] => []
  | .mk name type direction var properties target :: rest =>
    .mk name type direction var properties target.erase :: eraseLinks rest

/-- A far node without the values that are set on creation. -/
def WriteTarget.erase : WriteTarget → WriteTarget
  | .nested plan => .nested plan.erase
  | target => target

end

/-- A link without the values that are set on creation. -/
def WriteLink.erase : WriteLink → WriteLink
  | .mk name type direction var properties target =>
    .mk name type direction var properties target.erase

/-- Links are erased one by one. -/
theorem eraseLinks_eq (links : List WriteLink) : eraseLinks links = links.map WriteLink.erase := by
  induction links with
  | nil => rfl
  | cons link rest ih =>
    obtain ⟨name, type, direction, var, properties, target⟩ := link
    rw [eraseLinks, ih]
    rfl

/-- Far nodes keep their variables. -/
theorem WriteTarget.var_erase (target : WriteTarget) : target.erase.var = target.var := by
  cases target with
  | nested plan => cases plan; rfl
  | _ => rfl

/-- Steps that set properties are left alone. -/
theorem map_erase_setProperties (var : String) (properties : Bag) :
    (Step.setProperties var properties).map Step.erase = Step.setProperties var properties := by
  simp [Step.setProperties, Step.erase, Function.comp_def]

/-- Steps that set properties on creation are those of the erased properties. -/
theorem map_erase_createProperties (var : String) (properties : Bag) :
    (Step.createProperties var properties).map Step.erase =
      Step.createProperties var (KeyedList.mapValues (fun _ => .null) properties) := by
  simp [Step.createProperties, Step.erase, KeyedList.mapValues, Function.comp_def]

mutual

/-- The steps of an erased plan are those of the plan, erased. -/
theorem WritePlan.erase_stepsIn (scope : List String) : (plan : WritePlan) →
    plan.erase.stepsIn scope = (plan.stepsIn scope).map Step.erase
  | .mk mode var labels split links => by
    simp only [WritePlan.erase, WritePlan.stepsIn, List.map_cons, List.map_append,
      List.cons_append, map_erase_createProperties, map_erase_setProperties,
      linkSteps_erase mode.verb var (scope ++ [var]) links]
    rfl

/-- The steps of erased links are those of the links, erased. -/
theorem linkSteps_erase (verb : Verb) (var : String) (scope : List String) :
    (links : List WriteLink) →
    linkSteps verb var scope (eraseLinks links) = (linkSteps verb var scope links).map Step.erase
  | [] => rfl
  | .mk name type direction relVar properties target :: rest => by
    simp only [eraseLinks, linkSteps, List.map_cons, List.map_append, List.cons_append,
      map_erase_setProperties, WriteTarget.erase_steps scope target, WriteTarget.var_erase,
      linkSteps_erase verb var scope rest]
    rfl

/-- The steps that obtain an erased far node are those of the far node, erased. -/
theorem WriteTarget.erase_steps (scope : List String) : (target : WriteTarget) →
    target.erase.steps scope = (target.steps scope).map Step.erase
  | .existing _ _ => rfl
  | .reference _ _ _ _ => rfl
  | .nested plan => plan.erase_stepsIn scope

end

/-- Two bags agree but for the properties of these names, which were filled in in both: they note
the same, what was not filled in is equal, and if anything was filled in, a merge finds the entity
by what was not. -/
structure Agree (model : EntityType) (names : List String) (bag other : Bag) : Prop where
  noted : defaultedNames other = defaultedNames bag
  filled : ∀ p ∈ model.properties, p.name ∈ names → (bag.present? p.name).isSome ∧
    (other.present? p.name).isSome ∧ p.name ∈ defaultedNames bag
  given : ∀ p ∈ model.properties, p.name ∉ names →
    other.present? p.name = bag.present? p.name
  keyed : names ≠ [] → isKeyed model bag

/-- Two bags hold the same under the keys of properties, and note the same. -/
structure SameDeclared (model : EntityType) (bag other : Bag) : Prop where
  declared : ∀ p ∈ model.properties, other.present? p.name = bag.present? p.name
  noted : defaultedNames other = defaultedNames bag

section

variable {model : EntityType} {names : List String} {bag other : Bag}

/-- Bags that note the same names note the same properties. -/
theorem mem_defaultedNames_congr (h : defaultedNames other = defaultedNames bag) :
    ∀ p ∈ model.properties, (p.name ∈ defaultedNames other ↔ p.name ∈ defaultedNames bag) :=
  fun _ _ => by rw [h]

/-- Whether a merge finds the entity depends on which properties are noted and which are there. -/
theorem isKeyed_congr
    (hnoted : ∀ p ∈ model.properties, (p.name ∈ defaultedNames other ↔ p.name ∈ defaultedNames bag))
    (hthere : ∀ p ∈ model.properties,
      (other.present? p.name).isSome = (bag.present? p.name).isSome) :
    isKeyed model other = isKeyed model bag := by
  rw [Bool.eq_iff_iff, isKeyed_iff, isKeyed_iff]
  refine exists_congr fun key => and_congr_right fun hkey => ?_
  obtain ⟨p, hp, rfl⟩ := exists_property_of_mem_identifyingKeys hkey
  rw [isSupplied, isSupplied, hthere p hp, List.contains_eq_mem, List.contains_eq_mem,
    decide_eq_decide.mpr (hnoted p hp)]

section

variable {mode : WriteMode}

/-- What a property adds to a split depends on the values of the declared properties and, in a
merge, on which of them are noted. -/
theorem entryIn_congr
    (hdeclared : ∀ p ∈ model.properties, other.present? p.name = bag.present? p.name)
    (hnoted : mode = .merge → ∀ p ∈ model.properties,
      (p.name ∈ defaultedNames other ↔ p.name ∈ defaultedNames bag))
    {p : Property} (hp : p ∈ model.properties) (part : Part) :
    entryIn mode model other part p = entryIn mode model bag part p := by
  have hpart : partOf mode model other p = partOf mode model bag p := by
    cases mode with
    | create => rfl
    | merge =>
      have hkeyed := isKeyed_congr (hnoted rfl) fun p hp => by rw [hdeclared p hp]
      simp only [partOf, mergePart, hnoted rfl p hp, hkeyed]
  rw [entryIn, entryIn, hpart, hdeclared p hp]

/-- What a bag is split into depends on the values of the declared properties and, in a merge, on
which of them are noted. -/
theorem splitProperties_congr
    (hdeclared : ∀ p ∈ model.properties, other.present? p.name = bag.present? p.name)
    (hnoted : mode = .merge → ∀ p ∈ model.properties,
      (p.name ∈ defaultedNames other ↔ p.name ∈ defaultedNames bag)) :
    splitProperties mode model other = splitProperties mode model bag := by
  have hpart : ∀ part, (splitProperties mode model other).part part =
      (splitProperties mode model bag).part part := by
    intro part
    rw [part_splitProperties, part_splitProperties]
    exact congrArg _ (List.filterMap_congr fun p hp => entryIn_congr hdeclared hnoted hp part)
  have hinline := hpart .inline
  have honCreate := hpart .onCreate
  have hset := hpart .set
  generalize splitProperties mode model other = split at *
  generalize splitProperties mode model bag = split' at *
  cases split
  cases split'
  simp_all [Split.part]

/-- What a property adds to a split depends on what the bag holds under the keys of properties. -/
theorem SameDeclared.entryIn_eq (h : SameDeclared model bag other) {p : Property}
    (hp : p ∈ model.properties) (part : Part) :
    entryIn mode model other part p = entryIn mode model bag part p :=
  entryIn_congr h.declared (fun _ => mem_defaultedNames_congr h.noted) hp part

/-- What a bag is split into depends on what it holds under the keys of properties. -/
theorem SameDeclared.splitProperties_eq (h : SameDeclared model bag other) :
    splitProperties mode model other = splitProperties mode model bag :=
  splitProperties_congr h.declared fun _ => mem_defaultedNames_congr h.noted

end

namespace Agree

/-- Whether bags agree depends on what they hold under the keys of properties, and on what they
note. -/
theorem congr (h : Agree model names bag other) {bag' other' : Bag}
    (hbag : SameDeclared model bag bag') (hother : SameDeclared model other other') :
    Agree model names bag' other' := by
  constructor
  case noted => rw [hother.noted, hbag.noted, h.noted]
  case filled =>
    intro p hp hname
    rw [hbag.declared p hp, hother.declared p hp, hbag.noted]
    exact h.filled p hp hname
  case given =>
    intro p hp hname
    rw [hbag.declared p hp, hother.declared p hp, h.given p hp hname]
  case keyed =>
    intro hne
    rw [isKeyed_congr (mem_defaultedNames_congr hbag.noted) fun p hp => by rw [hbag.declared p hp]]
    exact h.keyed hne

/-- The same properties are there in both bags. -/
theorem isSome_present? (h : Agree model names bag other) {p : Property}
    (hp : p ∈ model.properties) :
    (other.present? p.name).isSome = (bag.present? p.name).isSome := by
  by_cases hname : p.name ∈ names
  · obtain ⟨hbag, hother, -⟩ := h.filled p hp hname
    rw [hbag, hother]
  · rw [h.given p hp hname]

/-- Properties are written in the same parts of both bags. -/
theorem partOf_eq (h : Agree model names bag other) (p : Property) :
    partOf .merge model other p = partOf .merge model bag p := by
  have hkeyed := isKeyed_congr (mem_defaultedNames_congr h.noted) fun p hp => h.isSome_present? hp
  simp only [partOf, mergePart, h.noted, hkeyed]

/-- What was filled in is set on creation. -/
theorem partOf_filled (h : Agree model names bag other) {p : Property} (hp : p ∈ model.properties)
    (hname : p.name ∈ names) : partOf .merge model bag p = .onCreate := by
  have hkeyed := h.keyed (List.ne_nil_of_mem hname)
  simp [partOf, mergePart, hkeyed, (h.filled p hp hname).2.2]

/-- The pattern, and what is set in any case, are the same for both bags: nothing that was filled in
is in them. -/
theorem part_eq (h : Agree model names bag other) {part : Part} (hpart : part ≠ .onCreate) :
    (splitProperties .merge model other).part part =
      (splitProperties .merge model bag).part part := by
  have hentry : ∀ p ∈ model.properties,
      entryIn .merge model other part p = entryIn .merge model bag part p := by
    intro p hp
    rw [entryIn, entryIn, h.partOf_eq]
    by_cases hname : p.name ∈ names
    · rw [h.partOf_filled hp hname, if_neg (Ne.symm hpart), if_neg (Ne.symm hpart)]
    · rw [h.given p hp hname]
  rw [part_splitProperties, part_splitProperties, List.filterMap_congr hentry]

/-- The same keys are set on creation for both bags. -/
theorem erase_onCreate (h : Agree model names bag other) :
    KeyedList.mapValues (fun _ => Value.null) (splitProperties .merge model other).onCreate =
      KeyedList.mapValues (fun _ => Value.null) (splitProperties .merge model bag).onCreate := by
  change KeyedList.mapValues _ ((splitProperties .merge model other).part .onCreate) =
    KeyedList.mapValues _ ((splitProperties .merge model bag).part .onCreate)
  rw [part_splitProperties, part_splitProperties, KeyedList.mapValues_ofPairs,
    KeyedList.mapValues_ofPairs, KeyedList.mapValues, KeyedList.mapValues,
    List.map_filterMap, List.map_filterMap]
  congr 1
  refine List.filterMap_congr fun p hp => ?_
  have hthere := h.isSome_present? hp
  rw [entryIn, entryIn, h.partOf_eq]
  split
  -- The values may differ, but they are there in both bags or in neither.
  · cases hbag : bag.present? p.name <;> cases hother : other.present? p.name <;> simp_all
  · rfl

/-- Bags that agree are split alike, but for the values set on creation. -/
theorem erase_splitProperties (h : Agree model names bag other) :
    (splitProperties .merge model other).erase = (splitProperties .merge model bag).erase := by
  have hinline : (splitProperties .merge model other).inline =
      (splitProperties .merge model bag).inline := @part_eq _ _ _ _ h .inline (by decide)
  have hset : (splitProperties .merge model other).set =
      (splitProperties .merge model bag).set := @part_eq _ _ _ _ h .set (by decide)
  rw [Split.erase, Split.erase, hinline, hset, h.erase_onCreate]

end Agree

end

end GraphMapper
