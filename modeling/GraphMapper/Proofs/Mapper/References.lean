import GraphMapper.Mapper.Entities
import GraphMapper.Proofs.Mapper.Preparation
import GraphMapper.Proofs.Write.Places

/-!
# References in a payload

A far side that is a scalar or a node refers to an entity that is there already, and needs no
preparation. `reference_survives_iff` says exactly which references a prepared payload still has at
their places: those that stand under their relationship themselves. Where the relationship itself is
held, the preparation takes the far node out of the item and puts it back only if it is a bag, so
that a reference is lost (`reference_lost`); with a target that is not registered nothing is
prepared, and nothing lost.

Hops lead through a prepared payload as they do through the payload, because the bags on the way are
themselves prepared (`bagAt?_of_prepare`).
-/

namespace GraphMapper

open Preparing

variable {registry : Registry} {levels : Nat} {model target : EntityType} {rel : Relationship}
  {bag prepared : Bag} {hop : Hop} {prepareFar : Bag → Preparing Bag}

/-- A bag is prepared to a bag, and any other item is left as it is. -/
theorem bag_or_eq_of_prepareItem {item after : Value}
    (h : (prepareItem prepareFar rel item).Yields after) :
    (∃ entries others, item = .map entries ∧ after = .map others) ∨ after = item := by
  cases item with
  | map entries =>
    cases hshape : rel.shape.isRelationship with
    | true =>
      obtain ⟨kept, ⟨_, others, -, -, rfl⟩ | ⟨-, rfl⟩⟩ := held_of_prepareItem hshape h
      · exact .inl ⟨entries, _, rfl, rfl⟩
      · exact .inl ⟨entries, _, rfl, rfl⟩
    | false =>
      obtain ⟨others, -, rfl⟩ := direct_of_prepareItem hshape h
      exact .inl ⟨entries, others, rfl, rfl⟩
  | _ => exact .inr h.of_pure.symm

/-- An item that is no list is none when it is prepared. -/
theorem items?_of_prepareItem {item after : Value}
    (h : (prepareItem prepareFar rel item).Yields after) (hitem : item.items? = none) :
    after.items? = none := by
  rcases bag_or_eq_of_prepareItem h with ⟨entries, others, rfl, rfl⟩ | rfl
  · rfl
  · exact hitem

/-- An item that is not null is not null when it is prepared. -/
theorem isNull_of_prepareItem {item after : Value}
    (h : (prepareItem prepareFar rel item).Yields after) (hitem : item.isNull = false) :
    after.isNull = false := by
  rcases bag_or_eq_of_prepareItem h with ⟨entries, others, rfl, rfl⟩ | rfl
  · rfl
  · exact hitem

/-- The item that a hop leads to is prepared, in its place. -/
theorem item?_of_prepareRelated {value after item : Value}
    (h : (prepareRelated prepareFar rel value).Yields after) (hitem : hop.item? value = some item) :
    ∃ other, hop.item? after = some other ∧ (prepareItem prepareFar rel item).Yields other := by
  cases value with
  | list items =>
    obtain ⟨others, hothers, h⟩ := h.of_bind
    obtain ⟨index, hindex, hget⟩ := Option.bind_eq_some_iff.mp hitem
    have hzip : items.zipIdx[index]? = some (item, index) := by
      simp [List.getElem?_zipIdx, hget]
    obtain ⟨other, hother, hprepared⟩ := getElem?_of_forall₂ hothers.of_mapM hzip
    refine ⟨other, ?_, hprepared.of_under⟩
    rw [← h.of_pure]
    simpa [Hop.item?, hindex] using hother
  | _ =>
    have hprepared := h.of_under
    have hafter := items?_of_prepareItem hprepared rfl
    rw [item?_of_not_list rfl] at hitem
    split at hitem
    · next hnone =>
      cases hitem
      exact ⟨after, by rw [item?_of_not_list hafter, if_pos hnone], hprepared⟩
    · cases hitem

/-- A far bag is prepared, in its place. -/
theorem farSide?_of_prepareItem_bag {item after : Value} {entries : Bag}
    (h : (prepareItem prepareFar rel item).Yields after)
    (hfar : farSide? rel item = some (.map entries)) :
    ∃ others, (prepareFar entries).Yields others ∧ farSide? rel after = some (.map others) := by
  cases hshape : rel.shape.isRelationship with
  | true =>
    obtain ⟨held, rfl, hget⟩ := exists_held hshape hfar
    obtain ⟨kept, ⟨found, others, hnode, hothers, rfl⟩ | ⟨hnone, -⟩⟩ := held_of_prepareItem hshape h
    · rw [hget] at hnode
      cases hnode
      refine ⟨others, hothers, ?_⟩
      simp [farSide?, hshape, Value.entries?, KeyedList.get?_put]
    · exact absurd hget (hnone entries)
  | false =>
    rw [farSide?, if_neg (by simp [hshape])] at hfar
    cases hfar
    obtain ⟨others, hothers, rfl⟩ := direct_of_prepareItem hshape h
    exact ⟨others, hothers, by simp [farSide?, hshape]⟩

/-- A far side that is no bag stays in its place where it stands there itself, and is lost where the
relationship is held. -/
theorem farSide?_of_prepareItem_reference {item after far : Value}
    (h : (prepareItem prepareFar rel item).Yields after) (hfar : farSide? rel item = some far)
    (hbag : far.entries? = none) :
    farSide? rel after = if rel.shape.isRelationship then none else some far := by
  cases hshape : rel.shape.isRelationship with
  | true =>
    obtain ⟨held, rfl, hget⟩ := exists_held hshape hfar
    obtain ⟨kept, ⟨found, others, hnode, -, -⟩ | ⟨-, rfl⟩⟩ := held_of_prepareItem hshape h
    · rw [hget] at hnode
      cases hnode
      simp [Value.entries?] at hbag
    · simp [farSide?, hshape, Value.entries?, KeyedList.get?_remove]
  | false =>
    rw [farSide?, if_neg (by simp [hshape])] at hfar
    cases hfar
    rcases bag_or_eq_of_prepareItem h with ⟨entries, others, rfl, -⟩ | rfl
    · simp [Value.entries?] at hbag
    · simp [farSide?, hshape]

/-- What becomes of an item under a relationship: it is prepared if the target is registered, and
left alone if it is not. -/
def PreparedItem (registry : Registry) (prepareFar : EntityType → Bag → Preparing Bag)
    (rel : Relationship) (item prepared : Value) : Prop :=
  match registry.target? rel with
  | none => prepared = item
  | some target => (prepareItem (prepareFar target) rel item).Yields prepared

/-- Once what it starts from is prepared, a hop leads to the prepared item. -/
theorem exists_preparedItem {far : Value}
    (h : (prepare registry (levels + 1) model bag).Yields prepared)
    (hreserved : hop.name ≠ defaultedKey) (hlead : hop.lead? model bag = some (rel, far)) :
    ∃ item after other, model.relationship? hop.name = some rel ∧ farSide? rel item = some far ∧
      KeyedList.get? prepared rel.name = some after ∧ hop.item? after = some other ∧
      PreparedItem registry (prepare registry levels) rel item other := by
  obtain ⟨value, item, hrel, hvalue, hitem, hfar⟩ := lead?_eq_some.mp hlead
  obtain ⟨hmem, hname⟩ := NamedList.of_find?_eq_some hrel
  obtain ⟨after, hafter, hunder⟩ := preparedUnder_of_prepare h hmem (hname ▸ hreserved) hvalue
  unfold PreparedUnder at hunder
  unfold PreparedItem
  cases htarget : registry.target? rel with
  | none =>
    rw [htarget] at hunder
    obtain rfl : after = value := hunder
    exact ⟨item, after, item, hrel, hfar, hafter, hitem, rfl⟩
  | some target =>
    rw [htarget] at hunder
    obtain ⟨other, hother, hprepared⟩ := item?_of_prepareRelated hunder hitem
    exact ⟨item, after, other, hrel, hfar, hafter, hother, hprepared⟩

/-- A hop to a bag leads to the prepared bag, once what it starts from is prepared. -/
theorem lead?_of_prepare_bag {entries : Bag}
    (h : (prepare registry (levels + 1) model bag).Yields prepared)
    (hreserved : hop.name ≠ defaultedKey)
    (hlead : hop.lead? model bag = some (rel, .map entries))
    (htarget : registry.target? rel = some target) :
    ∃ others, (prepare registry levels target entries).Yields others ∧
      hop.lead? model prepared = some (rel, .map others) := by
  obtain ⟨item, after, other, hrel, hfar, hafter, hother, hprepared⟩ :=
    exists_preparedItem h hreserved hlead
  unfold PreparedItem at hprepared
  rw [htarget] at hprepared
  obtain ⟨others, hothers, hside⟩ := farSide?_of_prepareItem_bag hprepared hfar
  exact ⟨others, hothers, lead?_eq_some.mpr ⟨after, other, hrel, hafter, hother, hside⟩⟩

/-- What a hop to no bag leads to, once what it starts from is prepared: the same, but nothing where
the relationship to a registered type is held. -/
theorem lead?_of_prepare_reference {far : Value}
    (h : (prepare registry (levels + 1) model bag).Yields prepared)
    (hreserved : hop.name ≠ defaultedKey) (hlead : hop.lead? model bag = some (rel, far))
    (hbag : far.entries? = none) :
    hop.lead? model prepared =
      if rel.shape.isRelationship ∧ (registry.target? rel).isSome then none
      else some (rel, far) := by
  obtain ⟨item, after, other, hrel, hfar, hafter, hother, hprepared⟩ :=
    exists_preparedItem h hreserved hlead
  have hlead' : hop.lead? model prepared = (farSide? rel other).map (rel, ·) := by
    simp [Hop.lead?, hrel, hafter, hother]
  unfold PreparedItem at hprepared
  cases htarget : registry.target? rel with
  | none =>
    rw [htarget] at hprepared
    obtain rfl : other = item := hprepared
    simp [hlead', hfar]
  | some target =>
    rw [htarget] at hprepared
    rw [hlead', farSide?_of_prepareItem_reference hprepared hfar hbag]
    cases rel.shape.isRelationship <;> simp

/-- Hops lead to a bag in a prepared payload as they do in the payload, and that bag is prepared. -/
theorem bagAt?_of_prepare {owner : EntityType} {inner : Bag} {path : List Hop}
    (h : (prepare registry levels model bag).Yields prepared)
    (hinner : bagAt? registry model bag path = some (owner, inner)) (hpath : path.length ≤ levels)
    (hreserved : ∀ hop ∈ path, hop.name ≠ defaultedKey) :
    ∃ after, bagAt? registry model prepared path = some (owner, after) ∧
      (prepare registry (levels - path.length) owner inner).Yields after := by
  -- A hop to a bag leads to a prepared bag, which was prepared for one level less.
  induction path generalizing levels model bag prepared with
  | nil =>
    cases hinner
    exact ⟨prepared, rfl, h⟩
  | cons hop rest ih =>
    obtain ⟨levels, rfl⟩ : ∃ fewer, levels = fewer + 1 :=
      ⟨levels - 1, by rw [List.length_cons] at hpath; omega⟩
    obtain ⟨rel, entries, target, hlead, htarget, hinner⟩ := bagAt?_cons_eq_some.mp hinner
    obtain ⟨others, hothers, hlead'⟩ :=
      lead?_of_prepare_bag h (hreserved hop List.mem_cons_self) hlead htarget
    have hrest : rest.length ≤ levels := by
      rw [List.length_cons] at hpath
      omega
    obtain ⟨after, hafter, hprepared⟩ :=
      ih hothers hinner hrest fun hop hmem => hreserved hop (List.mem_cons_of_mem _ hmem)
    refine ⟨after, bagAt?_cons_eq_some.mpr ⟨rel, others, target, hlead', htarget, hafter⟩, ?_⟩
    rw [List.length_cons, Nat.add_sub_add_right]
    exact hprepared

/-- A prepared payload that is planned holds no relationship to what is no bag. -/
theorem isRelationship_eq_false_of_planned {limit : WriteLimit} {mode : WriteMode} {var : String}
    {plan : WritePlan} {far : Value}
    (h : (prepare registry (levels + 1) model bag).Yields prepared)
    (hreserved : hop.name ≠ defaultedKey) (hlead : hop.lead? model bag = some (rel, far))
    (hbag : far.entries? = none)
    (hplan : planNode registry limit (levels + 1) mode var model prepared = .ok plan) :
    rel.shape.isRelationship = false := by
  refine Bool.eq_false_iff.mpr fun hshape => ?_
  obtain ⟨item, after, other, hrel, hfar, hafter, hother, hprepared⟩ :=
    exists_preparedItem h hreserved hlead
  -- The item is a bag, and stays one, but has no far side any more.
  have hitemNull : item.isNull = false := by
    obtain ⟨held, rfl, -⟩ := exists_held hshape hfar
    rfl
  unfold PreparedItem at hprepared
  cases htarget : registry.target? rel with
  | none =>
    rw [htarget] at hprepared
    obtain rfl : other = item := hprepared
    obtain ⟨target, -, htarget', -⟩ := exists_linkAt hplan hrel hafter hother hitemNull
    rw [htarget] at htarget'
    cases htarget'
  | some target =>
    rw [htarget] at hprepared
    have hside := farSide?_of_prepareItem_reference hprepared hfar hbag
    rw [hshape, if_pos rfl] at hside
    obtain ⟨_, _, -, -, node, properties, _, hsplit, -⟩ :=
      exists_linkAt hplan hrel hafter hother (isNull_of_prepareItem hprepared hitemNull)
    rw [(@farSide?_eq_some model rel other node).mpr ⟨properties, hsplit⟩] at hside
    cases hside

section

variable {mapper : Mapper} {payload : Bag} {supply rest : Supply} {path : List Hop} {value : Value}

/-- A reference on a level that is written is still in its place in the prepared payload exactly
when it stands under its relationship itself, or that relationship has no registered target. If the
prepared payload is planned, the reference stands there itself, and its target in the plan is what
it stands for, as in the plan of the payload. -/
theorem reference_survives_iff
    (hprepare : (prepare mapper.registry mapper.config.maxWriteDepth model payload).run.run supply =
      (.ok prepared, rest))
    (hplace : farAt? mapper.registry model payload path hop = some (rel, value))
    (hreference : value.isReference = true)
    (hdepth : path.length < mapper.config.maxWriteDepth)
    (hreserved : ∀ step ∈ path ++ [hop], step.name ≠ defaultedKey) :
    (farAt? mapper.registry model prepared path hop = some (rel, value) ↔
      rel.shape.isRelationship = false ∨ mapper.registry.target? rel = none) ∧
    ∀ mode after, WritePlan.ofPayload mapper.registry mapper.config.writeLimit mode rootVar model
        prepared = .ok after →
      rel.shape.isRelationship = false ∧
      ∃ target found, mapper.registry.target? rel = some target ∧
        referenceTarget? target (farVar (varAt mapper.registry model rootVar path) rel
          (hop.index.getD 0)) value = some found ∧
        after.targetAt? path hop = some found ∧
        ∀ plan, WritePlan.ofPayload mapper.registry mapper.config.writeLimit mode rootVar model
          payload = .ok plan → plan.targetAt? path hop = some found := by
  have hbag := Value.entries?_of_isReference hreference
  obtain ⟨⟨owner, inner⟩, hinner, hlead⟩ := Option.bind_eq_some_iff.mp hplace
  obtain ⟨fewer, hfewer⟩ : ∃ fewer, mapper.config.maxWriteDepth - path.length = fewer + 1 :=
    ⟨mapper.config.maxWriteDepth - path.length - 1, by omega⟩
  obtain ⟨others, hothers, hprepared⟩ := bagAt?_of_prepare ⟨supply, rest, hprepare⟩ hinner
    (Nat.le_of_lt hdepth) fun step hstep => hreserved step (List.mem_append_left _ hstep)
  rw [hfewer] at hprepared
  have hhop : hop.name ≠ defaultedKey := hreserved hop (by simp)
  have hafter : farAt? mapper.registry model prepared path hop =
      if rel.shape.isRelationship ∧ (mapper.registry.target? rel).isSome then none
      else some (rel, value) := by
    rw [farAt?, hothers, Option.bind_some]
    exact lead?_of_prepare_reference hprepared hhop hlead hbag
  refine ⟨?_, fun mode after hplan => ?_⟩
  -- The first part reads off what is left at the place; the second follows a plan down to it.
  · rw [hafter]
    cases rel.shape.isRelationship <;> cases mapper.registry.target? rel <;> simp
  · obtain ⟨mode', node, -, hnode⟩ := exists_nodeAt hplan hothers (Nat.le_of_lt hdepth)
    have hlimit : mapper.config.writeLimit.depth - path.length = fewer + 1 := hfewer
    rw [hlimit] at hnode
    have hshape := isRelationship_eq_false_of_planned hprepared hhop hlead hbag hnode
    rw [hshape, if_neg (by simp)] at hafter
    obtain ⟨target, found, htarget, hfound, hstands⟩ :=
      targetAt?_of_reference hplan hafter hdepth hreference
    refine ⟨hshape, target, found, htarget, hstands, hfound, fun plan hplan => ?_⟩
    obtain ⟨target', found', htarget', hfound', hstands'⟩ :=
      targetAt?_of_reference hplan hplace hdepth hreference
    rw [htarget] at htarget'
    cases htarget'
    rw [hstands] at hstands'
    cases hstands'
    exact hfound'

end

/-- Employees have a manager, under whose key the manager stands. -/
def management : Relationship where
  name := "manager"
  shape := .node
  type := "REPORTS_TO"
  direction := .outgoing
  target := .model "Employee"

/-- Employees have a mentor, under whose key the relationship stands. -/
def mentoring : Relationship where
  name := "mentor"
  shape := .relationship
  type := "MENTORED_BY"
  direction := .outgoing
  target := .model "Employee"

/-- Employees are known by their names. -/
def employee : EntityType where
  name := "Employee"
  labels := ["Employee"]
  properties := [Property.asPrimary { name := "name", type := .string }]
  relationships := [management, mentoring]
  labels_ne_nil := by decide
  labels_ascending := by decide
  properties_nodup := by decide
  relationships_nodup := by decide
  keys_disjoint := by decide
  primary_le_one := by decide

/-- The mapper of employees. -/
def staff : Mapper := ⟨⟨[employee], by decide⟩, {}⟩

/-- A supply of one identifier over and over. -/
def sameUuid : Supply := { uuids := fun _ => ⟨0⟩ }

/-- Somebody whose new mentor reports to a manager who is there already. -/
def mentored : Bag := [
  ("mentor", .map [("node", .map [("manager", .string "Cleo"), ("name", .string "Bob")])]),
  ("name", .string "Ann")]

/-- The manager of the new mentor is still referred to once the payload is prepared, and planned as
the employee with that name. -/
theorem manager_survives :
    ∃ prepared plan, (prepare staff.registry staff.config.maxWriteDepth employee mentored).run.run
        sameUuid = (.ok prepared, sameUuid) ∧
      farAt? staff.registry employee mentored [⟨"mentor", none⟩] ⟨"manager", none⟩ =
        some (management, .string "Cleo") ∧
      farAt? staff.registry employee prepared [⟨"mentor", none⟩] ⟨"manager", none⟩ =
        some (management, .string "Cleo") ∧
      WritePlan.ofPayload staff.registry staff.config.writeLimit .create rootVar employee prepared =
        .ok plan ∧
      plan.targetAt? [⟨"mentor", none⟩] ⟨"manager", none⟩ =
        some (.reference "this_mentor_node_manager_node" ["Employee"] "name" (.string "Cleo")) := by
  have hprepare : (prepare staff.registry staff.config.maxWriteDepth employee mentored).run.run
      sameUuid = (.ok mentored, sameUuid) := rfl
  have hplace : farAt? staff.registry employee mentored [⟨"mentor", none⟩] ⟨"manager", none⟩ =
      some (management, .string "Cleo") := rfl
  have hplan : ∃ plan, WritePlan.ofPayload staff.registry staff.config.writeLimit .create rootVar
      employee mentored = .ok plan := ⟨_, rfl⟩
  obtain ⟨plan, hplan⟩ := hplan
  obtain ⟨hsurvives, hplanned⟩ :=
    reference_survives_iff hprepare hplace rfl (by decide) (by decide)
  obtain ⟨-, target, found, htarget, hstands, hfound, -⟩ := hplanned .create plan hplan
  cases htarget
  cases hstands
  exact ⟨mentored, plan, hprepare, hplace, hsurvives.mpr (.inl rfl), hplan, hfound⟩

/-- Somebody whose mentor is there already. -/
def referring : Bag := [("mentor", .map [("node", .string "Bob")]), ("name", .string "Ann")]

/-- A mentor who is referred to by name is planned as the employee with that name, but is no longer
in the prepared payload, and so the creation of the prepared payload is refused. -/
theorem reference_lost :
    ∃ prepared plan, (prepare staff.registry staff.config.maxWriteDepth employee referring).run.run
        sameUuid = (.ok prepared, sameUuid) ∧
      farAt? staff.registry employee referring [] ⟨"mentor", none⟩ =
        some (mentoring, .string "Bob") ∧
      WritePlan.ofPayload staff.registry staff.config.writeLimit .create rootVar employee
        referring = .ok plan ∧
      plan.targetAt? [] ⟨"mentor", none⟩ =
        some (.reference "this_mentor_node" ["Employee"] "name" (.string "Bob")) ∧
      farAt? staff.registry employee prepared [] ⟨"mentor", none⟩ = none ∧
      WritePlan.ofPayload staff.registry staff.config.writeLimit .create rootVar employee prepared =
        .error (.missingRelationshipNode "mentor" "Employee" "node") :=
  ⟨_, _, rfl, rfl, rfl, rfl, rfl, rfl⟩

end GraphMapper
