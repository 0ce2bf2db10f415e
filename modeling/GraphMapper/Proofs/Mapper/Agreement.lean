import Mathlib.Data.List.Find
import GraphMapper.Proofs.Mapper.Filling
import GraphMapper.Proofs.Mapper.References
import GraphMapper.Proofs.Write.Bags
import GraphMapper.Proofs.Write.Erasure

/-!
# Two preparations of one payload

A payload is prepared twice, from two supplies. Its bags are filled in with different values, but
under the same names, and are otherwise coerced to the same (`Filled.agree`); what stands under the
keys of relationships is prepared item by item, and so agrees on the next level. The plans of the
two prepared payloads are then equal once the values set on creation are erased, or both are refused
for the same reason (`planNode_agree`).

This needs of each type that its generators give no nulls, and that no relationship that is held has
its node key among its own properties: there the prepared far bag, with all that was filled in, is
written as a property of the relationship too.
-/

namespace GraphMapper

open Preparing

variable {registry : Registry} {levels : Nat} {model target : EntityType} {rel : Relationship}
  {bag : Bag} {names : List String}

namespace Filled

variable {after other : Bag}

/-- What was there is there once it is prepared. -/
theorem isSome_of_given (h : Filled model bag names after) {p : Property}
    (hp : p ∈ model.properties) (hgiven : (bag.present? p.name).isSome) :
    (after.present? p.name).isSome := by
  by_cases hkey : names = [] ∨ p.name ≠ defaultedKey
  · obtain ⟨value, hvalue⟩ := Option.isSome_iff_exists.mp hgiven
    obtain ⟨result, -, hresult⟩ := h.given p hp hkey value hvalue
    rw [hresult]
    rfl
  · simp only [not_or, Decidable.not_not] at hkey
    rw [Bag.present?, hkey.2, h.marked hkey.1]
    rfl

/-- Two bags that are filled in under the same names have the same under a key that is not
declared. -/
theorem get?_eq (h : Filled model bag names after) (hother : Filled model bag names other)
    {key : String} (hkey : key ∉ model.properties.map Property.name) :
    KeyedList.get? other key = KeyedList.get? after key := by
  by_cases hmarked : names = [] ∨ key ≠ defaultedKey
  · rw [h.other key hkey hmarked, hother.other key hkey hmarked]
  · simp only [not_or, Decidable.not_not] at hmarked
    rw [hmarked.2, h.marked hmarked.1, hother.marked hmarked.1]

/-- Two bags that are filled in under the same names have the same under all others. -/
theorem present?_eq (h : Filled model bag names after) (hother : Filled model bag names other)
    {key : String} (hkey : key ∉ names) : other.present? key = after.present? key := by
  by_cases hmarked : names = [] ∨ key ≠ defaultedKey
  · by_cases hdeclared : key ∈ model.properties.map Property.name
    · obtain ⟨p, hp, rfl⟩ := List.mem_map.mp hdeclared
      cases hvalue : bag.present? p.name with
      | none => rw [h.missing p hp hmarked hvalue hkey, hother.missing p hp hmarked hvalue hkey]
      | some value =>
        obtain ⟨result, hcoerce, hresult⟩ := h.given p hp hmarked value hvalue
        obtain ⟨result', hcoerce', hresult'⟩ := hother.given p hp hmarked value hvalue
        rw [hcoerce] at hcoerce'
        cases hcoerce'
        rw [hresult, hresult']
    · exact present?_congr (h.get?_eq hother hdeclared)
  · simp only [not_or, Decidable.not_not] at hmarked
    exact present?_congr (by rw [hmarked.2, h.marked hmarked.1, hother.marked hmarked.1])

/-- A bag that gives a key still does once it is prepared: the key was given and is not noted. -/
theorem isKeyed (h : Filled model bag names after) (hgives : givesKey model bag)
    (hne : names ≠ []) : isKeyed model after := by
  obtain ⟨key, hkey, hgiven⟩ := List.any_eq_true.mp hgives
  obtain ⟨p, hp, rfl⟩ := exists_property_of_mem_identifyingKeys hkey
  have hnot : p.name ∉ names := fun hname => by
    rw [(h.noted p.name hname).1] at hgiven
    cases hgiven
  refine isKeyed_iff.mpr ⟨p.name, hkey, ?_⟩
  rw [isSupplied, defaultedNames_of_marked (h.marked hne), h.isSome_of_given hp hgiven]
  simpa using hnot

/-- Two bags that are filled in under the same names agree. -/
theorem agree (h : Filled model bag names after) (hother : Filled model bag names other)
    (hgives : givesKey model bag) : Agree model names after other := by
  constructor
  case noted =>
    by_cases hne : names = []
    · exact defaultedNames_congr (h.present?_eq hother (by simp [hne]))
    · rw [defaultedNames_of_marked (h.marked hne), defaultedNames_of_marked (hother.marked hne)]
  case filled =>
    intro p _ hname
    rw [defaultedNames_of_marked (h.marked (List.ne_nil_of_mem hname))]
    exact ⟨(h.noted p.name hname).2.1, (hother.noted p.name hname).2.1, hname⟩
  case given => exact fun p _ hname => h.present?_eq hother hname
  case keyed => exact h.isKeyed hgives

end Filled

/-- What becomes of a bag whose properties are prepared, when the bags under the keys of its
relationships are. -/
structure PreparedBelow (registry : Registry) (prepareFar : EntityType → Bag → Preparing Bag)
    (model : EntityType) (checked prepared : Bag) : Prop where
  /-- Other keys are left alone. -/
  other : ∀ key ∉ model.relationships.map Relationship.name,
    KeyedList.get? prepared key = KeyedList.get? checked key
  /-- What is under the key of a relationship is prepared. -/
  under : ∀ rel ∈ model.relationships, ∀ value, KeyedList.get? checked rel.name = some value →
    ∃ after, KeyedList.get? prepared rel.name = some after ∧
      PreparedUnder registry prepareFar rel value after
  /-- Where nothing is, nothing comes. -/
  absent : ∀ rel ∈ model.relationships, KeyedList.get? checked rel.name = none →
    KeyedList.get? prepared rel.name = none
  /-- The note is left alone. -/
  noted : defaultedNames prepared = defaultedNames checked

section

variable {prepareFar : EntityType → Bag → Preparing Bag} {prepared : Bag}

/-- A prepared item is a text exactly if the item is, and the same one. -/
theorem string?_of_prepareItem {far : Bag → Preparing Bag} {item after : Value}
    (h : (prepareItem far rel item).Yields after) : after.string? = item.string? := by
  rcases bag_or_eq_of_prepareItem h with ⟨entries, others, rfl, rfl⟩ | rfl
  · rfl
  · rfl

/-- The items of a list are prepared one by one. -/
theorem exists_of_prepareRelated_list {far : Bag → Preparing Bag} {items : List Value}
    {after : Value} (h : (prepareRelated far rel (.list items)).Yields after) :
    ∃ others, after = .list others ∧
      List.Forall₂ (fun item other => (prepareItem far rel item).Yields other) items others := by
  obtain ⟨others, hothers, h⟩ := h.of_bind
  refine ⟨others, h.of_pure.symm, ?_⟩
  have hlisted : List.Forall₂ (fun item other => (prepareItem far rel item.1).Yields other)
      items.zipIdx others := hothers.of_mapM.imp fun _ _ hother => hother.of_under
  rw [← List.zipIdx_map_fst 0 items]
  exact List.forall₂_map_left_iff.mpr hlisted

/-- What is no list is prepared as one item, under the name of the relationship. -/
theorem prepareRelated_of_not_list {far : Bag → Preparing Bag} {value : Value}
    (hvalue : value.items? = none) :
    prepareRelated far rel value = (prepareItem far rel value).under rel.name := by
  cases value with
  | list items => cases hvalue
  | _ => rfl

/-- What comes of a value that is no list comes of it as one item. -/
theorem prepareItem_of_not_list {far : Bag → Preparing Bag} {value after : Value}
    (hvalue : value.items? = none) (h : (prepareRelated far rel value).Yields after) :
    (prepareItem far rel value).Yields after := by
  rw [prepareRelated_of_not_list hvalue] at h
  exact h.of_under

/-- What is under the key of a relationship notes the same names when it is prepared. -/
theorem noted_of_prepareRelated {far : Bag → Preparing Bag} {value after : Value}
    (h : (prepareRelated far rel value).Yields after) : after.noted = value.noted := by
  cases hvalue : value.items? with
  | some items =>
    obtain rfl := Value.items?_eq_some.mp hvalue
    obtain ⟨others, rfl, hothers⟩ := exists_of_prepareRelated_list h
    -- Texts are left as they are, and no other item becomes one.
    have hstrings := filterMap_of_forall₂ (hothers.imp fun _ _ => string?_of_prepareItem)
    rw [Value.noted, hstrings, Value.noted]
  | none =>
    have hafter := items?_of_prepareItem (prepareItem_of_not_list hvalue h) hvalue
    have hnone : ∀ v : Value, v.items? = none → v.noted = [] := by
      intro v hv
      cases v <;> simp_all [Value.items?, Value.noted]
    rw [hnone value hvalue, hnone after hafter]

/-- The preparation under one key leaves the note alone, even under the reserved one. -/
theorem defaultedNames_of_prepareUnder
    (h : (prepareUnder registry prepareFar bag rel).Yields prepared) :
    defaultedNames prepared = defaultedNames bag := by
  by_cases hkey : rel.name = defaultedKey
  · unfold prepareUnder at h
    split at h
    · next value target hvalue htarget =>
      obtain ⟨after, hafter, h⟩ := h.of_bind
      rw [hkey] at hvalue h
      rw [← h.of_pure, defaultedNames_eq, defaultedNames_eq, KeyedList.get?_put, if_pos rfl, hvalue,
        Option.map_some, Option.map_some, noted_of_prepareRelated hafter]
    · rw [h.of_pure]
  · exact defaultedNames_congr (present?_congr (get?_of_prepareUnder h hkey))

/-- Where nothing is, the preparation under a key puts nothing. -/
theorem get?_none_of_prepareUnder {key : String}
    (h : (prepareUnder registry prepareFar bag rel).Yields prepared)
    (hnone : KeyedList.get? bag key = none) : KeyedList.get? prepared key = none := by
  by_cases hkey : rel.name = key
  · unfold prepareUnder at h
    rw [hkey, hnone] at h
    rw [← h.of_pure, hnone]
  · rw [get?_of_prepareUnder h hkey, hnone]

/-- The preparation under the keys of all relationships prepares what is below. -/
theorem preparedBelow_of_foldlM {checked : Bag}
    (h : (model.relationships.foldlM (prepareUnder registry prepareFar) checked).Yields prepared) :
    PreparedBelow registry prepareFar model checked prepared := by
  constructor
  case other => exact fun key hkey => get?_of_foldlM_prepareUnder h hkey
  case under =>
    exact fun rel hrel value hvalue =>
      preparedUnder_of_foldlM_prepareUnder h model.relationships_nodup hrel hvalue
  case absent =>
    exact fun rel _ hnone =>
      h.of_foldlM (fun bag => KeyedList.get? bag rel.name = none)
        (fun _ _ _ hnone hstep => get?_none_of_prepareUnder hstep hnone) hnone
  case noted =>
    exact h.of_foldlM (fun bag => defaultedNames bag = defaultedNames checked)
      (fun _ _ _ hnoted hstep => (defaultedNames_of_prepareUnder hstep).trans hnoted) rfl

/-- Above the last level, a preparation prepares the properties and then what is below. -/
theorem exists_preparedBelow (h : (prepare registry (levels + 1) model bag).Yields prepared) :
    ∃ checked, (prepareProperties model bag).Yields checked ∧
      PreparedBelow registry (prepare registry levels) model checked prepared := by
  obtain ⟨checked, hchecked, h⟩ := h.of_bind
  exact ⟨checked, hchecked, preparedBelow_of_foldlM h⟩

/-- What is below is prepared beside the properties. -/
theorem PreparedBelow.sameDeclared {checked : Bag}
    (h : PreparedBelow registry prepareFar model checked prepared) :
    SameDeclared model checked prepared := by
  refine ⟨fun p hp => present?_congr (h.other p.name fun hname => ?_), h.noted⟩
  exact model.keys_disjoint p.name hname (List.mem_map_of_mem hp)

end

/-- A prepared bag has the properties of one whose properties were prepared by themselves. -/
theorem exists_checked_of_prepare {prepared : Bag}
    (h : (prepare registry levels model bag).Yields prepared) :
    ∃ checked, (prepareProperties model bag).Yields checked ∧
      SameDeclared model checked prepared := by
  cases levels with
  | zero => exact ⟨prepared, h, fun _ _ => rfl, rfl⟩
  | succ levels =>
    obtain ⟨checked, hchecked, hbelow⟩ := exists_preparedBelow h
    exact ⟨checked, hchecked, hbelow.sameDeclared⟩

/-- A prepared bag has the properties of one in which they were filled in. -/
theorem exists_filled_of_prepare {prepared : Bag}
    (h : (prepare registry levels model bag).Yields prepared) :
    ∃ note checked, Filled model bag note checked ∧ SameDeclared model checked prepared ∧
      ((∀ p ∈ model.properties, p.NeverNull) → note = filledNames model bag) := by
  obtain ⟨checked, hchecked, hsame⟩ := exists_checked_of_prepare h
  obtain ⟨note, hfilled, hnote⟩ := exists_filled hchecked
  exact ⟨note, checked, hfilled, hsame, hnote⟩

section

variable {limit : WriteLimit} {var : String}

/-- A type whose generators give no nulls, and none of whose relationships that are held has its
node key among its own properties. -/
structure Plain (model : EntityType) : Prop where
  neverNull : ∀ p ∈ model.properties, p.NeverNull
  nodeKeys : ∀ rel ∈ model.relationships, rel.shape.isRelationship →
    rel.property? rel.nodeKey = none

/-- Every bag that hops lead to has a value by which a merge may find its entity. -/
def GivesKeys (registry : Registry) (levels : Nat) (model : EntityType) (bag : Bag) : Prop :=
  ∀ path owner inner, path.length ≤ levels →
    bagAt? registry model bag path = some (owner, inner) → givesKey owner inner

/-- A bag gives a key itself if all below it do. -/
theorem GivesKeys.root (hkeys : GivesKeys registry levels model bag) : givesKey model bag :=
  hkeys [] model bag (Nat.zero_le levels) rfl

/-- All below a bag give keys if all below the bag that a hop comes from do. -/
theorem GivesKeys.far (hkeys : GivesKeys registry (levels + 1) model bag) {hop : Hop}
    {entries : Bag} (hlead : hop.lead? model bag = some (rel, .map entries))
    (htarget : registry.target? rel = some target) : GivesKeys registry levels target entries := by
  intro path owner inner hpath hinner
  exact hkeys (hop :: path) owner inner (Nat.succ_le_succ hpath)
    (bagAt?_cons_eq_some.mpr ⟨rel, entries, target, hlead, htarget, hinner⟩)

/-- No hop leads to an item that is a bag in a list of names. -/
theorem entries?_of_item?_noted {hop : Hop} {item : Value}
    (h : hop.item? (.list (names.map .string)) = some item) : item.entries? = none := by
  obtain ⟨index, -, hget⟩ := Option.bind_eq_some_iff.mp h
  obtain ⟨name, -, rfl⟩ := List.mem_map.mp (List.mem_of_getElem? hget)
  rfl

/-- A hop to a bag led there before the properties were filled in. -/
theorem Filled.lead?_bag {checked entries : Bag} (h : Filled model bag names checked) {hop : Hop}
    (hlead : hop.lead? model checked = some (rel, .map entries)) :
    hop.lead? model bag = some (rel, .map entries) := by
  obtain ⟨value, item, hrel, hvalue, hitem, hfar⟩ := lead?_eq_some.mp hlead
  obtain ⟨hmem, -⟩ := NamedList.of_find?_eq_some hrel
  have hkey := model.keys_disjoint rel.name (List.mem_map_of_mem hmem)
  refine lead?_eq_some.mpr ⟨value, item, hrel, ?_, hitem, hfar⟩
  by_cases hmarked : names = [] ∨ rel.name ≠ defaultedKey
  · rw [← h.other rel.name hkey hmarked, hvalue]
  · -- Under the reserved key a note leads to no bag.
    simp only [not_or, Decidable.not_not] at hmarked
    rw [hmarked.2, h.marked hmarked.1] at hvalue
    cases hvalue
    have hbag := isSome_entries?_of_farSide? hfar
    rw [entries?_of_item?_noted hitem] at hbag
    cases hbag

/-- Plans that are equal once the values set on creation are erased. -/
abbrev SamePlan (plan other : WritePlan) : Prop := other.erase = plan.erase

/-- Links that are equal once the values set on creation are erased. -/
abbrev SameLink (link other : WriteLink) : Prop := other.erase = link.erase

/-- The attempts to plan two preparations of one bag have the same outcome, but for values set on
creation. -/
def PlansAgree (registry : Registry) (limit : WriteLimit) (levels : Nat) : Prop :=
  ∀ {var : String} {model : EntityType} {bag prepared other : Bag}, model ∈ registry.models →
    GivesKeys registry levels model bag →
    (prepare registry levels model bag).Yields prepared →
    (prepare registry levels model bag).Yields other →
    SameOutcome SamePlan (planNode registry limit levels .merge var model prepared)
      (planNode registry limit levels .merge var model other)

/-- Items whose relationships have the same properties, and whose far bags are planned alike, are
planned alike. -/
theorem planItem_far_agree {after other : Value} {prepared prepared' properties : Bag} {index : Nat}
    (hafter : splitItem model rel after = .ok (.map prepared, properties))
    (hother : splitItem model rel other = .ok (.map prepared', properties))
    (hplans : SameOutcome SamePlan
      (planNode registry limit levels .merge (farVar var rel index) target prepared)
      (planNode registry limit levels .merge (farVar var rel index) target prepared')) :
    SameOutcome SameLink
      (planItem (planNode registry limit levels .merge) var model rel target (after, index))
      (planItem (planNode registry limit levels .merge) var model rel target (other, index)) := by
  have hfar : SameOutcome (fun far far' : WriteTarget => far'.erase = far.erase)
      (planFar (planNode registry limit levels .merge) model rel target (farVar var rel index)
        (.map prepared))
      (planFar (planNode registry limit levels .merge) model rel target (farVar var rel index)
        (.map prepared')) :=
    hplans.map fun plan plan' hplan => congrArg WriteTarget.nested hplan
  unfold planItem
  rw [hafter, hother]
  refine hfar.bind fun far far' herase => .ok ?_
  rw [SameLink, WriteLink.erase, WriteLink.erase, herase]

section

variable (ih : PlansAgree registry limit levels) (htarget : target ∈ registry.models)
  {after other : Value}

include ih htarget

/-- Two preparations of one held item are planned alike. -/
theorem planItem_agree_held (hshape : rel.shape.isRelationship = true)
    (hnode : rel.property? rel.nodeKey = none) {entries : Bag}
    (hkeys : ∀ far, farSide? rel (.map entries) = some (.map far) →
      GivesKeys registry levels target far)
    (hafter : (prepareItem (prepare registry levels target) rel (.map entries)).Yields after)
    (hother : (prepareItem (prepare registry levels target) rel (.map entries)).Yields other)
    (index : Nat) :
    SameOutcome SameLink
      (planItem (planNode registry limit levels .merge) var model rel target (after, index))
      (planItem (planNode registry limit levels .merge) var model rel target (other, index)) := by
  -- What is kept of the relationship takes nothing from the supply.
  obtain ⟨kept, hkept, hafter⟩ := kept_of_prepareItem hshape hafter
  obtain ⟨kept', hkept', hother⟩ := kept_of_prepareItem hshape hother
  rw [hkept] at hkept'
  cases hkept'
  rcases hafter with ⟨far, prepared, hfar, hprepared, rfl⟩ | ⟨hnone, rfl⟩
  · rcases hother with ⟨far', prepared', hfar', hprepared', rfl⟩ | ⟨hnone, -⟩
    · rw [hfar] at hfar'
      cases hfar'
      have hfarKeys := hkeys far (by simp [farSide?, hshape, Value.entries?, hfar])
      have hsplit : ∀ value, splitItem model rel (.map (KeyedList.put kept rel.nodeKey value)) =
          .ok (value, linkProperties rel kept) := by
        intro value
        simp only [splitItem, hshape, if_true, KeyedList.get?_put, linkProperties_put hnode]
      exact planItem_far_agree (hsplit _) (hsplit _) (ih htarget hfarKeys hprepared hprepared')
    · exact absurd hfar (hnone far)
  · rcases hother with ⟨far', prepared', hfar', -, -⟩ | ⟨-, rfl⟩
    · exact absurd hfar' (hnone far')
    · exact .refl fun _ => rfl

/-- Two preparations of one item are planned alike. -/
theorem planItem_agree (hnode : rel.shape.isRelationship → rel.property? rel.nodeKey = none)
    {item : Value} (hkeys : ∀ entries, farSide? rel item = some (.map entries) →
      GivesKeys registry levels target entries)
    (hafter : (prepareItem (prepare registry levels target) rel item).Yields after)
    (hother : (prepareItem (prepare registry levels target) rel item).Yields other) (index : Nat) :
    SameOutcome SameLink
      (planItem (planNode registry limit levels .merge) var model rel target (after, index))
      (planItem (planNode registry limit levels .merge) var model rel target (other, index)) := by
  cases item with
  | map entries =>
    cases hshape : rel.shape.isRelationship with
    | true => exact planItem_agree_held ih htarget hshape (hnode hshape) hkeys hafter hother index
    | false =>
      obtain ⟨prepared, hprepared, rfl⟩ := direct_of_prepareItem hshape hafter
      obtain ⟨prepared', hprepared', rfl⟩ := direct_of_prepareItem hshape hother
      have hfarKeys := hkeys entries (by simp [farSide?, hshape])
      have hsplit : ∀ value, splitItem model rel value = .ok (value, []) := by
        intro value
        simp [splitItem, hshape]
      exact planItem_far_agree (hsplit _) (hsplit _) (ih htarget hfarKeys hprepared hprepared')
  | _ =>
    rw [← hafter.of_pure, ← hother.of_pure]
    exact .refl fun _ => rfl

end

/-- The items of what is prepared under the key of a relationship are prepared one by one, unless a
list is where one item belongs. -/
theorem relatedItems_of_prepareRelated {far : Bag → Preparing Bag} {value after : Value}
    (hshape : rel.shape.isCollection = true ∨ value.items? = none)
    (h : (prepareRelated far rel value).Yields after) :
    List.Forall₂ (fun item other => (prepareItem far rel item).Yields other)
      (relatedItems rel.shape value) (relatedItems rel.shape after) := by
  cases hvalue : value.items? with
  | some items =>
    obtain rfl := Value.items?_eq_some.mp hvalue
    have hcollection : rel.shape.isCollection = true := by simpa [Value.items?] using hshape
    obtain ⟨others, rfl, hothers⟩ := exists_of_prepareRelated_list h
    simpa only [relatedItems, hcollection, if_true] using hothers
  | none =>
    have hprepared := prepareItem_of_not_list hvalue h
    rw [relatedItems_of_not_list hvalue,
      relatedItems_of_not_list (items?_of_prepareItem hprepared hvalue)]
    exact .cons hprepared .nil

/-- A value is null exactly if it is once it is prepared. -/
theorem isNull_of_prepareRelated {far : Bag → Preparing Bag} {value after : Value}
    (h : (prepareRelated far rel value).Yields after) : after.isNull = value.isNull := by
  cases value with
  | list items =>
    obtain ⟨others, rfl, -⟩ := exists_of_prepareRelated_list h
    rfl
  | null => rw [← (prepareItem_of_not_list rfl h).of_pure]
  | _ => exact isNull_of_prepareItem (prepareItem_of_not_list rfl h) rfl

/-- Two preparations of what is under one key are planned alike. -/
theorem planItems_agree (ih : PlansAgree registry limit levels) (htarget : target ∈ registry.models)
    (hnode : rel.shape.isRelationship → rel.property? rel.nodeKey = none)
    {value after other : Value}
    (hkeys : ∀ item ∈ relatedItems rel.shape value, ∀ entries,
      farSide? rel item = some (.map entries) → GivesKeys registry levels target entries)
    (hafter : (prepareRelated (prepare registry levels target) rel value).Yields after)
    (hother : (prepareRelated (prepare registry levels target) rel value).Yields other) :
    SameOutcome (List.Forall₂ SameLink)
      ((relatedItems rel.shape after).zipIdx.mapM
        (planItem (planNode registry limit levels .merge) var model rel target))
      ((relatedItems rel.shape other).zipIdx.mapM
        (planItem (planNode registry limit levels .merge) var model rel target)) := by
  by_cases hshape : rel.shape.isCollection = true ∨ value.items? = none
  · have hitems := forall₂_zipIdx (relatedItems_of_prepareRelated hshape hafter)
      (relatedItems_of_prepareRelated hshape hother) 0
    refine .mapM (hitems.imp ?_)
    rintro ⟨after, index⟩ ⟨other, _⟩ ⟨rfl, item, hitem, hafter, hother⟩
    exact planItem_agree ih htarget hnode (hkeys item hitem) hafter hother index
  · -- A list where one item belongs is refused as a whole.
    rw [not_or] at hshape
    obtain ⟨hsingle, hlist⟩ := hshape
    obtain ⟨items, rfl⟩ : ∃ items, value = .list items := by
      cases value <;> simp_all [Value.items?]
    obtain ⟨others, rfl, -⟩ := exists_of_prepareRelated_list hafter
    obtain ⟨others', rfl, -⟩ := exists_of_prepareRelated_list hother
    simp only [relatedItems, hsingle, Bool.false_eq_true, if_false, List.zipIdx_cons,
      List.zipIdx_nil, List.mapM_cons, planItem_list]
    exact .error _

/-- The bags under the key of a relationship give keys if the whole bag does, whatever was filled in
beside them. -/
theorem GivesKeys.of_relatedItems (h : GivesKeys registry (levels + 1) model bag) {checked : Bag}
    (hfilled : Filled model bag names checked) (hrel : rel ∈ model.relationships)
    {value item : Value} (hvalue : KeyedList.get? checked rel.name = some value)
    (htarget : registry.target? rel = some target) (hitem : item ∈ relatedItems rel.shape value)
    {entries : Bag} (hfar : farSide? rel item = some (.map entries)) :
    GivesKeys registry levels target entries := by
  obtain ⟨hop, hlead⟩ := exists_lead_of_far_bag hrel hvalue hitem hfar
  exact h.far (hfilled.lead?_bag hlead) htarget

/-- Two preparations of a bag are planned alike under each relationship. -/
theorem planRelated_agree (ih : PlansAgree registry limit levels)
    (hplain : ∀ model ∈ registry.models, Plain model) (hmodel : model ∈ registry.models)
    (hrel : rel ∈ model.relationships) (hkeys : GivesKeys registry (levels + 1) model bag)
    {checked checked' prepared prepared' : Bag} (hfilled : Filled model bag names checked)
    (hfilled' : Filled model bag names checked')
    (hbelow : PreparedBelow registry (prepare registry levels) model checked prepared)
    (hbelow' : PreparedBelow registry (prepare registry levels) model checked' prepared') :
    SameOutcome (List.Forall₂ SameLink)
      (planRelated registry (planNode registry limit levels .merge) var model prepared rel)
      (planRelated registry (planNode registry limit levels .merge) var model prepared' rel) := by
  have hkey := model.keys_disjoint rel.name (List.mem_map_of_mem hrel)
  have hsame := hfilled.get?_eq hfilled' hkey
  have hrefl : ∀ links : List WriteLink, List.Forall₂ SameLink links links :=
    fun links => List.forall₂_same.mpr fun _ _ => rfl
  unfold planRelated
  cases hvalue : KeyedList.get? checked rel.name with
  | none =>
    rw [hvalue] at hsame
    rw [Bag.present?, Bag.present?, hbelow.absent rel hrel hvalue, hbelow'.absent rel hrel hsame]
    exact .ok .nil
  | some value =>
    rw [hvalue] at hsame
    obtain ⟨after, hafter, hunder⟩ := hbelow.under rel hrel value hvalue
    obtain ⟨after', hafter', hunder'⟩ := hbelow'.under rel hrel value hsame
    unfold PreparedUnder at hunder hunder'
    cases htarget : registry.target? rel with
    | none =>
      rw [htarget] at hunder hunder'
      rw [present?_congr (hafter'.trans (hunder'.trans hunder.symm ▸ hafter.symm))]
      exact .refl hrefl
    | some target =>
      rw [htarget] at hunder hunder'
      have hnull := isNull_of_prepareRelated hunder
      have hnull' := isNull_of_prepareRelated hunder'
      rw [Bag.present?, Bag.present?, hafter, hafter', Option.filter_some, Option.filter_some,
        hnull, hnull']
      cases hvalueNull : value.isNull with
      | true => exact .ok .nil
      | false =>
        have hnode := (hplain model hmodel).nodeKeys rel hrel
        exact planItems_agree ih (mem_models_of_target? htarget) hnode
          (fun item hitem entries => hkeys.of_relatedItems hfilled hrel hvalue htarget hitem)
          hunder hunder'

/-- Plans with the same content, once the values set on creation are erased, and with such links. -/
theorem samePlan_mk {split split' : Split} {links links' : List WriteLink}
    (hsplit : split'.erase = split.erase) (hlinks : List.Forall₂ SameLink links links')
    (mode : WriteMode) (labels : List String) :
    SamePlan (.mk mode var labels split links) (.mk mode var labels split' links') := by
  have hmap : links'.map WriteLink.erase = links.map WriteLink.erase := by
    induction hlinks with
    | nil => rfl
    | cons hhead _ ih => rw [List.map_cons, List.map_cons, hhead, ih]
  rw [SamePlan, WritePlan.erase, WritePlan.erase, hsplit, eraseLinks_eq, eraseLinks_eq, hmap]

/-- A bag in which the properties are filled in has something under the same keys of
relationships. -/
theorem Filled.find?_relationships {checked checked' : Bag} (h : Filled model bag names checked)
    (h' : Filled model bag names checked') :
    (model.relationships.find? fun rel => (checked'.present? rel.name).isSome) =
      model.relationships.find? fun rel => (checked.present? rel.name).isSome := by
  refine List.find?_congr fun rel hrel => ?_
  have hkey := model.keys_disjoint rel.name (List.mem_map_of_mem hrel)
  rw [present?_congr (h.get?_eq h' hkey)]

/-- Two preparations of a bag are planned alike: with the values that are set on creation erased,
the plans are equal, or both are refused for the same reason. -/
theorem planNode_agree (hplain : ∀ model ∈ registry.models, Plain model) :
    PlansAgree registry limit levels := by
  -- Far bags are prepared and planned for one level less.
  induction levels with
  | zero =>
    intro var model bag prepared prepared' hmodel hkeys hprepared hprepared'
    obtain ⟨note, hfilled, hnote⟩ := exists_filled hprepared
    obtain ⟨note', hfilled', hnote'⟩ := exists_filled hprepared'
    rw [hnote (hplain model hmodel).neverNull] at hfilled
    rw [hnote' (hplain model hmodel).neverNull] at hfilled'
    have hsplit := (hfilled.agree hfilled' hkeys.root).erase_splitProperties
    unfold planNode
    rw [hfilled.find?_relationships hfilled']
    split
    · exact .error _
    · exact .ok (samePlan_mk hsplit .nil .merge model.labels)
  | succ levels ih =>
    intro var model bag prepared prepared' hmodel hkeys hprepared hprepared'
    obtain ⟨checked, hchecked, hbelow⟩ := exists_preparedBelow hprepared
    obtain ⟨checked', hchecked', hbelow'⟩ := exists_preparedBelow hprepared'
    obtain ⟨note, hfilled, hnote⟩ := exists_filled hchecked
    obtain ⟨note', hfilled', hnote'⟩ := exists_filled hchecked'
    rw [hnote (hplain model hmodel).neverNull] at hfilled
    rw [hnote' (hplain model hmodel).neverNull] at hfilled'
    have hsplit := ((hfilled.agree hfilled' hkeys.root).congr hbelow.sameDeclared
      hbelow'.sameDeclared).erase_splitProperties
    have hrelated : ∀ rel ∈ model.relationships, SameOutcome (List.Forall₂ SameLink)
        (planRelated registry (planNode registry limit levels .merge) var model prepared rel)
        (planRelated registry (planNode registry limit levels .merge) var model prepared' rel) :=
      fun rel hrel => planRelated_agree ih hplain hmodel hrel hkeys hfilled hfilled' hbelow hbelow'
    have hlinks := SameOutcome.mapM (List.forall₂_same.mpr hrelated)
    exact hlinks.bind fun links links' h =>
      .ok (samePlan_mk hsplit (List.rel_flatten h) .merge model.labels)

end

end GraphMapper
