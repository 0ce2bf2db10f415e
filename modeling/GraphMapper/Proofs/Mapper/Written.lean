import GraphMapper.Proofs.Mapper.Independence

/-!
# What is written was checked

The preparation of a payload and the planning of its write go through the payload each by itself,
and count levels each by itself. `written_checked` says that they agree: every node of the plan that
a creation or a merge sends is that of a bag of the payload, which was defaulted and checked as one
of the type that it is written as (`WritePlan.Checked`). The values that are set on its entity and
on the relationships that leave it are of their declared types, and no required property is left
out.

A property with the name of the node key would be written with what stands under that key, which is
not checked as a property; no relationship that is held may have one.
-/

namespace GraphMapper

open Cypher Preparing

/-- The entry has a value of the type of the property that is declared under its key. -/
def IsAccepted (property? : String → Option Property) (entry : String × Value) : Prop :=
  entry.2.isNull = false ∧ ∃ p, property? entry.1 = some p ∧ p.Accepts entry.2

/-- The node writes a checked bag of the type, and checked properties of relationships. -/
structure WritePlan.Checked (owner : EntityType) (node : WritePlan) : Prop where
  labels : node.labels = owner.labels
  /-- Every value that is written for the entity is one of a declared property. -/
  accepted : ∀ entry ∈ node.split.entries, IsAccepted owner.property? entry
  /-- Every required property is written. -/
  required : ∀ p ∈ owner.properties, p.required → p.name ∈ KeyedList.keys node.split.entries
  /-- Every property with a default is written. -/
  defaulted : ∀ p ∈ owner.properties, p.NeverNull → p.isFilled →
    p.name ∈ KeyedList.keys node.split.entries
  /-- Every value that is written for a relationship is one of a property declared for it. -/
  links : ∀ link ∈ node.links, ∃ rel, owner.relationship? link.name = some rel ∧
    ∀ entry ∈ link.properties, IsAccepted rel.property? entry

/-- No relationship that is held has a property with the name of its node key. -/
def Registry.SeparateNodeKeys (registry : Registry) : Prop :=
  ∀ model ∈ registry.models, ∀ rel ∈ model.relationships, rel.shape.isRelationship →
    rel.property? rel.nodeKey = none

variable {registry : Registry} {limit : WriteLimit} {levels : Nat} {mode : WriteMode} {var : String}
  {model target : EntityType} {rel : Relationship} {bag prepared : Bag} {plan : WritePlan}

/-- A prepared bag has values of the declared types, and all that are needed. -/
theorem prepared_of_prepare (h : (prepare registry levels model bag).Yields prepared) :
    Prepared model prepared := by
  obtain ⟨checked, hchecked, hsame⟩ := exists_checked_of_prepare h
  have hprepared := prepared_of_prepareProperties hchecked
  constructor
  case accepted =>
    intro p hp value hvalue
    rw [hsame.declared p hp] at hvalue
    exact hprepared.accepted p hp value hvalue
  case required =>
    intro p hp hrequired
    rw [hsame.declared p hp]
    exact hprepared.required p hp hrequired
  case defaulted =>
    intro p hp hnever hfilled
    rw [hsame.declared p hp]
    exact hprepared.defaulted p hp hnever hfilled

namespace Prepared

/-- The split of a prepared bag has values of the declared types. -/
theorem isAccepted_of_mem_split (h : Prepared model bag) {entry : String × Value}
    (hentry : entry ∈ (splitProperties mode model bag).entries) :
    IsAccepted model.property? entry := by
  obtain ⟨key, value⟩ := entry
  obtain ⟨p, hp, rfl, hvalue⟩ := mem_entries_splitProperties.mp hentry
  exact ⟨(present?_eq_some.mp hvalue).2, p, EntityType.property?_of_mem hp,
    h.accepted p hp value hvalue⟩

/-- The split of a bag has every property that has a value. -/
theorem mem_keys_split {p : Property} (hp : p ∈ model.properties)
    (hthere : (bag.present? p.name).isSome) :
    p.name ∈ KeyedList.keys (splitProperties mode model bag).entries := by
  obtain ⟨value, hvalue⟩ := Option.isSome_iff_exists.mp hthere
  have hentry : (p.name, value) ∈ (splitProperties mode model bag).entries :=
    mem_entries_splitProperties.mpr ⟨p, hp, rfl, hvalue⟩
  exact List.mem_map_of_mem hentry

end Prepared

section

variable {properties : List Property} {name : String} {value : Value}

/-- What is kept so far of the properties of a relationship: values of the declared types, beside
the far node, and none that is yet to be taken. -/
structure Kept (nodeKey : String) (properties : List Property) (state : Bag × Checked) : Prop where
  taken : ∀ p ∈ properties, state.1.present? p.name = none
  accepted : ∀ entry ∈ state.2.bag, entry.1 ≠ nodeKey →
    ∃ p, NamedList.find? Property.name properties entry.1 = some p ∧ p.Accepts entry.2

/-- What was declared first under a name still is when more is declared. -/
theorem find?_append_of_some {more : List Property} {p : Property}
    (h : NamedList.find? Property.name properties name = some p) :
    NamedList.find? Property.name (properties ++ more) name = some p := by
  rw [NamedList.find?, List.find?_append, ← NamedList.find?, h, Option.some_or]

/-- A value that is yet to be taken is not that of a property before. -/
theorem Kept.find?_eq_none {nodeKey : String} {state : Bag × Checked}
    (h : Kept nodeKey properties state) (hvalue : state.1.present? name = some value) :
    NamedList.find? Property.name properties name = none := by
  refine Option.eq_none_iff_forall_ne_some.mpr fun p hp => ?_
  obtain ⟨hmem, rfl⟩ := NamedList.of_find?_eq_some hp
  have hnone := h.taken p hmem
  rw [hvalue] at hnone
  cases hnone

/-- A property may be taken without being kept. -/
theorem Kept.remove {nodeKey : String} {given : Bag} {before after : Checked}
    (h : Kept nodeKey properties (given, before)) (p : Property) (hbag : after.bag = before.bag) :
    Kept nodeKey (properties ++ [p]) (KeyedList.remove given p.name, after) := by
  constructor
  case taken =>
    intro q hq
    rw [Bag.present?, KeyedList.get?_remove]
    split
    · rfl
    · next hne =>
      rcases List.mem_append.mp hq with hq | hq
      · exact h.taken q hq
      · exact absurd (congrArg Property.name (List.mem_singleton.mp hq)).symm hne
  case accepted =>
    intro entry hentry hkey
    rw [hbag] at hentry
    obtain ⟨q, hq, haccepts⟩ := h.accepted entry hentry hkey
    exact ⟨q, find?_append_of_some hq, haccepts⟩

/-- A property that is taken is kept if its value can be coerced. -/
theorem Kept.keepProperty {nodeKey : String} {state : Bag × Checked}
    (h : Kept nodeKey properties state) (p : Property) :
    Kept nodeKey (properties ++ [p]) (keepProperty state p) := by
  obtain ⟨given, kept⟩ := state
  unfold GraphMapper.keepProperty
  cases hvalue : given.present? p.name with
  | none =>
    simp only [hvalue]
    exact h.remove p rfl
  | some value =>
    cases hcoerce : coerce p.type value with
    | error refusal =>
      simp only [hvalue, hcoerce]
      exact h.remove p rfl
    | ok result =>
      simp only [hvalue, hcoerce]
      have hremoved := h.remove p rfl
      refine ⟨hremoved.taken, fun entry hentry hkey => ?_⟩
      rcases KeyedList.mem_put hentry with rfl | hentry
      · refine ⟨p, ?_, coerce_of_coerce hcoerce⟩
        rw [NamedList.find?, List.find?_append, ← NamedList.find?, h.find?_eq_none hvalue]
        simp
      · exact hremoved.accepted entry hentry hkey

/-- What is kept when more properties were taken has values of the declared types. -/
theorem Kept.foldl_keepProperty {nodeKey : String} {more : List Property} {state : Bag × Checked}
    (h : Kept nodeKey properties state) :
    Kept nodeKey (properties ++ more) (more.foldl GraphMapper.keepProperty state) := by
  induction more generalizing properties state with
  | nil =>
    rw [List.append_nil]
    exact h
  | cons p rest ih =>
    rw [List.foldl_cons, List.append_cons]
    exact ih (h.keepProperty p)

/-- What is kept of the bag of a relationship, beside the far node, is of the declared types. -/
theorem accepts_of_mem_relationshipBag {kept : Bag} (h : relationshipBag rel bag = .ok kept)
    {entry : String × Value} (hentry : entry ∈ kept) (hkey : entry.1 ≠ rel.nodeKey) :
    ∃ p, rel.property? entry.1 = some p ∧ p.Accepts entry.2 := by
  have hstart : Kept rel.nodeKey []
      (KeyedList.remove bag rel.nodeKey, { bag := farEntry rel bag }) := by
    refine ⟨fun p hp => absurd hp List.not_mem_nil, fun entry hentry hkey => ?_⟩
    -- There is nothing yet but the far node.
    unfold farEntry at hentry
    split at hentry
    · exact absurd (congrArg Prod.fst (List.mem_singleton.mp hentry)) hkey
    · cases hentry
  rw [eq_bag_of_result h] at hentry
  exact hstart.foldl_keepProperty.accepted entry hentry hkey

end

/-- A prepared item of a relationship that is held has what was kept of one, beside the far node. -/
theorem exists_relationshipBag_of_prepareItem {far : Bag → Preparing Bag} {item : Value}
    {held : Bag} (hshape : rel.shape.isRelationship = true)
    (h : (prepareItem far rel item).Yields (.map held)) :
    ∃ given kept, relationshipBag rel given = .ok kept ∧
      ∀ entry ∈ held, entry.1 ≠ rel.nodeKey → entry ∈ kept := by
  obtain ⟨given, rfl⟩ : ∃ given, item = .map given := by
    rcases bag_or_eq_of_prepareItem h with ⟨given, -, rfl, -⟩ | hitem
    · exact ⟨given, rfl⟩
    · exact ⟨held, hitem.symm⟩
  obtain ⟨kept, hkept, hheld⟩ := kept_of_prepareItem hshape h
  refine ⟨given, kept, hkept, fun entry hentry hkey => ?_⟩
  rcases hheld with ⟨_, others, -, -, hheld⟩ | ⟨-, hheld⟩
  · obtain rfl := Value.map.inj hheld
    rcases KeyedList.mem_put hentry with rfl | hentry
    · exact absurd rfl hkey
    · exact hentry
  · obtain rfl := Value.map.inj hheld
    exact KeyedList.mem_of_mem_remove hentry

/-- The properties of a relationship that is split from a prepared item are of their types. -/
theorem isAccepted_of_splitItem {far : Bag → Preparing Bag} {item after node : Value}
    {properties : Bag} (h : (prepareItem far rel item).Yields after)
    (hnode : rel.shape.isRelationship → rel.property? rel.nodeKey = none)
    (hsplit : splitItem model rel after = .ok (node, properties)) {entry : String × Value}
    (hentry : entry ∈ properties) : IsAccepted rel.property? entry := by
  cases hshape : rel.shape.isRelationship with
  | false =>
    simp only [splitItem, hshape, Bool.false_eq_true, if_false] at hsplit
    cases hsplit
    cases hentry
  | true =>
    have hfar := (@farSide?_eq_some model rel after node).mpr ⟨properties, hsplit⟩
    obtain ⟨held, rfl, hget⟩ := exists_held hshape hfar
    simp only [splitItem, hshape, if_true, hget] at hsplit
    cases hsplit
    obtain ⟨hmem, hwritten⟩ := List.mem_filter.mp hentry
    obtain ⟨hdeclared, hnull⟩ : (rel.property? entry.1).isSome ∧ entry.2.isNull = false := by
      simpa using hwritten
    have hkey : entry.1 ≠ rel.nodeKey := fun hkey => by
      rw [hkey, hnode hshape] at hdeclared
      cases hdeclared
    obtain ⟨given, kept, hkept, hheld⟩ := exists_relationshipBag_of_prepareItem hshape h
    exact ⟨hnull, accepts_of_mem_relationshipBag hkept (hheld entry hmem hkey) hkey⟩

/-- What is planned under the key of a relationship was prepared item by item. -/
theorem exists_prepareItem_of_planned
    (h : (prepare registry (levels + 1) model bag).Yields prepared)
    (hrel : rel ∈ model.relationships) {value item : Value}
    (hvalue : KeyedList.get? prepared rel.name = some value)
    (htarget : registry.target? rel = some target) (hitem : item ∈ relatedItems rel.shape value)
    (hlist : item.items? = none) :
    ∃ given, (prepareItem (prepare registry levels target) rel given).Yields item := by
  obtain ⟨checked, -, hbelow⟩ := exists_preparedBelow h
  cases hgiven : KeyedList.get? checked rel.name with
  | none =>
    rw [hbelow.absent rel hrel hgiven] at hvalue
    cases hvalue
  | some given =>
    obtain ⟨after, hafter, hunder⟩ := hbelow.under rel hrel given hgiven
    obtain rfl : value = after := Option.some.inj (hvalue.symm.trans hafter)
    rw [PreparedUnder, htarget] at hunder
    by_cases hshape : rel.shape.isCollection = true ∨ given.items? = none
    · obtain ⟨given, -, hprepared⟩ :=
        exists_of_forall₂_right (relatedItems_of_prepareRelated hshape hunder) hitem
      exact ⟨given, hprepared⟩
    · -- A list where one item belongs is its only item.
      rw [not_or] at hshape
      obtain ⟨hsingle, hgivenList⟩ := hshape
      obtain ⟨items, rfl⟩ : ∃ items, given = .list items := by
        cases given <;> simp_all [Value.items?]
      obtain ⟨others, rfl, -⟩ := exists_of_prepareRelated_list hunder
      simp only [relatedItems, hsingle, Bool.false_eq_true, if_false, List.mem_singleton] at hitem
      rw [hitem] at hlist
      cases hlist

/-- Every relationship that is planned for a prepared bag has accepted properties. -/
theorem isAccepted_of_mem_links (hkeys : registry.SeparateNodeKeys)
    (hmodel : model ∈ registry.models) (h : (prepare registry levels model bag).Yields prepared)
    (hplan : planNode registry limit levels mode var model prepared = .ok plan) {link : WriteLink}
    (hlink : link ∈ plan.links) :
    ∃ rel, model.relationship? link.name = some rel ∧
      ∀ entry ∈ link.properties, IsAccepted rel.property? entry := by
  cases levels with
  | zero =>
    obtain ⟨-, rfl⟩ := planNode_zero_eq_ok.mp hplan
    cases hlink
  | succ levels =>
    obtain ⟨links, hlinks, rfl⟩ := planNode_succ_eq_ok.mp hplan
    obtain ⟨planned, hplanned, hlink⟩ := List.mem_flatten.mp hlink
    obtain ⟨rel, hrel, hrelated⟩ := exists_of_forall₂_right hlinks hplanned
    refine ⟨rel, ?_, ?_⟩
    · rw [name_of_plannedLinks hrelated link hlink]
      exact NamedList.find?_of_mem model.relationships_nodup hrel
    · unfold PlannedLinks at hrelated
      split at hrelated
      · rw [hrelated] at hlink
        cases hlink
      · next value hvalue =>
        obtain ⟨target, htarget, hitems⟩ := hrelated
        obtain ⟨⟨item, index⟩, hitem, hplannedLink⟩ := exists_of_forall₂_right hitems hlink
        have hmem : item ∈ relatedItems rel.shape value := (List.mem_zipIdx hitem).2.2 ▸ by simp
        obtain ⟨given, hgiven⟩ := exists_prepareItem_of_planned h hrel
          (present?_eq_some.mp hvalue).1 htarget hmem (items?_of_plannedLink hplannedLink)
        obtain ⟨node, properties, far, hsplit, -, rfl⟩ := hplannedLink
        exact fun entry hentry =>
          isAccepted_of_splitItem hgiven (hkeys model hmodel rel hrel) hsplit hentry

/-- The plan of a prepared bag writes a checked bag. -/
theorem checked_of_prepare (hkeys : registry.SeparateNodeKeys) (hmodel : model ∈ registry.models)
    (h : (prepare registry levels model bag).Yields prepared)
    (hplan : planNode registry limit levels mode var model prepared = .ok plan) :
    plan.Checked model := by
  obtain ⟨-, hlabels, hsplit⟩ := planNode_spec hplan
  have hprepared := prepared_of_prepare h
  constructor
  case labels => exact hlabels
  case accepted =>
    rw [hsplit]
    exact fun entry hentry => hprepared.isAccepted_of_mem_split hentry
  case required =>
    intro p hp hrequired
    rw [hsplit]
    exact Prepared.mem_keys_split hp (hprepared.required p hp hrequired)
  case defaulted =>
    intro p hp hnever hfilled
    rw [hsplit]
    exact Prepared.mem_keys_split hp (hprepared.defaulted p hp hnever hfilled)
  case links => exact fun link hlink => isAccepted_of_mem_links hkeys hmodel h hplan hlink

/-- A type that is found under its name is registered. -/
theorem mem_models_of_model {mapper : Mapper} {name : String} (h : mapper.model name = .ok model) :
    model ∈ mapper.registry.models := by
  unfold Mapper.model Registry.model at h
  split at h
  · next found hfind =>
    cases h
    exact (NamedList.of_find?_eq_some hfind).1
  · cases h

/-- A registered type is found under its name. -/
theorem model_of_mem_models {mapper : Mapper} (h : model ∈ mapper.registry.models) :
    mapper.model model.name = .ok model := by
  have hfind : mapper.registry.find? model.name = some model :=
    NamedList.find?_of_mem mapper.registry.names_nodup h
  rw [Mapper.model, Registry.model, hfind]
  rfl

/-- A request to write comes from the preparation of a payload, and from a plan of what came of
it. -/
theorem exists_plan_of_writeRequest {mapper : Mapper} {name : String} {payload : Bag}
    {supply rest : Supply} {request : Request Node}
    (h : (mapper.writeRequest mode name payload).run.run supply = (.ok request, rest)) :
    ∃ model prepared plan expression, mapper.model name = .ok model ∧
      (prepare mapper.registry mapper.config.maxWriteDepth model payload).run.run supply =
        (.ok prepared, rest) ∧
      WritePlan.ofPayload mapper.registry mapper.config.writeLimit mode rootVar model prepared =
        .ok plan ∧
      Mapper.queryOf (plan.steps ++ [.carry [rootVar], .returning [expression]]) =
        .ok request.query := by
  obtain ⟨model, _, hrunModel, h⟩ := exists_run_of_bind h
  obtain ⟨hmodel, rfl⟩ := run_ofExcept hrunModel
  obtain ⟨prepared, _, hprepared, h⟩ := exists_run_of_bind h
  obtain ⟨query, _, hrunQuery, h⟩ := exists_run_of_bind h
  obtain ⟨hquery, rfl⟩ := run_ofExcept hrunQuery
  cases h
  obtain ⟨plan, hplan, hquery⟩ := bind_eq_ok.mp hquery
  obtain ⟨expression, -, hquery⟩ := bind_eq_ok.mp hquery
  refine ⟨model, prepared, plan, expression, hmodel, hprepared, ?_, hquery⟩
  exact mapError_eq_ok.mp hplan

/-- A payload that can be prepared, and then be written by a query, comes to a request. -/
theorem run_writeRequest {mapper : Mapper} {name : String} {payload : Bag} {supply rest : Supply}
    {query : Query} (hmodel : mapper.model name = .ok model)
    (hprepared : (prepare mapper.registry mapper.config.maxWriteDepth model payload).run.run
      supply = (.ok prepared, rest))
    (hquery : mapper.writeQuery mode model prepared = .ok query) :
    (mapper.writeRequest mode name payload).run.run supply =
      (.ok ⟨.write, query, mapper.firstNode rootVar model (mode.title ++ " " ++ model.name)⟩,
        rest) := by
  have hof : ∀ {α : Type} (a : α) (supply : Supply),
      (Preparing.ofExcept (.ok a)).run.run supply = (.ok a, supply) := fun _ _ => rfl
  rw [Mapper.writeRequest, hmodel, run_bind_of_run (hof model supply), run_bind_of_run hprepared,
    hquery, run_bind_of_run (hof query rest)]
  rfl

/-- What is sent first for a request is its query. -/
theorem exists_request_of_run {α : Type} {attempt : Except MapperError (Request α)}
    {access : Access} {query : Query} {next : Outcome → Dialogue (Except MapperError α)}
    (h : Dialogue.ofRequest attempt = .run access query next) :
    ∃ request, attempt = .ok request ∧ request.access = access ∧ request.query = query := by
  cases attempt with
  | error e => cases h
  | ok request =>
    cases h
    exact ⟨request, rfl, rfl, rfl⟩

/-- Preparation reaches everything that is written. Where a creation or a merge comes to a query,
that query writes a plan of the prepared payload, and every node of the plan is that of a bag of the
payload, within the limit of depth. That bag was defaulted and checked as one of the type that it is
written as: what the node writes for the entity and for its relationships are accepted values of
declared properties, and every required property is among them. -/
theorem written_checked {mapper : Mapper} {name : String} {payload : Bag} {supply rest : Supply}
    {access : Access} {query : Query} {next : Outcome → Dialogue (Except MapperError Node)}
    (hkeys : mapper.registry.SeparateNodeKeys)
    (h : (mapper.write mode name payload).run supply = (.run access query next, rest)) :
    ∃ model prepared plan expression, mapper.model name = .ok model ∧
      (prepare mapper.registry mapper.config.maxWriteDepth model payload).run.run supply =
        (.ok prepared, rest) ∧
      WritePlan.ofPayload mapper.registry mapper.config.writeLimit mode rootVar model prepared =
        .ok plan ∧
      Mapper.queryOf (plan.steps ++ [.carry [rootVar], .returning [expression]]) = .ok query ∧
      ∀ node ∈ plan.nodes, ∃ path owner bag,
        path.length ≤ mapper.config.maxWriteDepth ∧ plan.nodeAt? path = some node ∧
        bagAt? mapper.registry model payload path = some (owner, bag) ∧ node.Checked owner := by
  have hwrite : (mapper.write mode name payload).run supply =
      (Dialogue.ofRequest ((mapper.writeRequest mode name payload).run.run supply).1,
        ((mapper.writeRequest mode name payload).run.run supply).2) := rfl
  rw [hwrite] at h
  obtain ⟨hfirst, hrest⟩ := Prod.mk.inj h
  obtain ⟨request, hrequest, -, rfl⟩ := exists_request_of_run hfirst
  obtain ⟨model, prepared, plan, expression, hmodel, hprepared, hplan, hquery⟩ :=
    exists_plan_of_writeRequest (Prod.ext hrequest hrest)
  refine ⟨model, prepared, plan, expression, hmodel, hprepared, hplan, hquery, ?_⟩
  intro node hnode
  obtain ⟨path, owner, others, hpath, hothers, hnodeAt, hplanned⟩ :=
    exists_planned_of_mem_nodes hplan hnode
  obtain ⟨bag, hbag, hyields⟩ := exists_bagAt?_of_prepare ⟨supply, rest, hprepared⟩ hothers hpath
  have howner := mem_models_of_bagAt? (mem_models_of_model hmodel) hbag
  exact ⟨path, owner, bag, hpath, hnodeAt, hbag,
    checked_of_prepare hkeys howner hyields hplanned⟩

/-- Members pay a fee, which has a default. -/
def clubMember : EntityType where
  name := "Member"
  labels := ["Member"]
  properties := [Property.asPrimary { name := "name", type := .string, required := true },
    { name := "fee", type := .integer, defaultValue := some (.literal (.int 10)) }]
  relationships := [{
    name := "sponsors"
    shape := .relationships
    type := "SPONSORS"
    direction := .outgoing
    target := .model "Member"
    properties := [{ name := "since", type := .integer }] }]
  labels_ne_nil := by decide
  labels_ascending := by decide
  properties_nodup := by decide
  relationships_nodup := by simp
  keys_disjoint := by simp [Property.asPrimary]
  primary_le_one := by decide

/-- The mapper of the members of a club. -/
def club : Mapper := ⟨⟨[clubMember], by simp⟩, {}⟩

/-- A member who sponsors another one, with values that have to be coerced. -/
def sponsor : Bag := [
  ("fee", .string "25"),
  ("name", .string "Ann"),
  ("sponsors", .list [.map [("node", .map [("name", .string "Bob")]), ("since", .string "1999")]])]

/-- Both members are checked, and so is what is said of their relationship. -/
theorem sponsor_checked :
    ∃ query next model prepared plan expression,
      (club.write .create "Member" sponsor).run (onlyUuid 0 0) =
        (.run .write query next, onlyUuid 0 0) ∧
      club.model "Member" = .ok model ∧
      (prepare club.registry club.config.maxWriteDepth model sponsor).run.run (onlyUuid 0 0) =
        (.ok prepared, onlyUuid 0 0) ∧
      WritePlan.ofPayload club.registry club.config.writeLimit .create rootVar model prepared =
        .ok plan ∧
      Mapper.queryOf (plan.steps ++ [.carry [rootVar], .returning [expression]]) = .ok query ∧
      plan.nodeCount = 2 ∧
      ∀ node ∈ plan.nodes, ∃ path owner bag,
        path.length ≤ club.config.maxWriteDepth ∧ plan.nodeAt? path = some node ∧
        bagAt? club.registry model sponsor path = some (owner, bag) ∧ node.Checked owner := by
  have hkeys : club.registry.SeparateNodeKeys := by
    intro model hmodel rel hrel _
    obtain rfl := List.mem_singleton.mp hmodel
    obtain rfl := List.mem_singleton.mp hrel
    rfl
  have hwrite : ∃ query next, (club.write .create "Member" sponsor).run (onlyUuid 0 0) =
      (.run .write query next, onlyUuid 0 0) := ⟨_, _, rfl⟩
  obtain ⟨query, next, hwrite⟩ := hwrite
  obtain ⟨model, prepared, plan, expression, hmodel, hprepared, hplan, hquery, hnodes⟩ :=
    written_checked hkeys hwrite
  have hcount : plan.nodeCount = 2 := by
    cases hmodel
    cases hprepared
    cases hplan
    rfl
  exact ⟨query, next, model, prepared, plan, expression, hwrite, hmodel, hprepared, hplan, hquery,
    hcount, hnodes⟩

end GraphMapper
