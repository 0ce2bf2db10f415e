import GraphMapper.Mapper.Entities
import GraphMapper.Proofs.Mapper.Agreement

/-!
# What is filled in says nothing about which entity is meant

Of two preparations of one payload, from different supplies, a merge makes queries with the same
text, whose parameters differ at most in what is set on creation, or both are refused for the same
reason (`merge_independent_of_filled`). The bags of a prepared payload were prepared from those of
the payload (`exists_bagAt?_of_prepare`), so that each node of the plan belongs to a bag of the
payload; and what was filled in there is neither in the pattern of the node nor among what is set in
any case.

A relationship that is held and has a property with the name of its node key is an exception, which
`generated_tag_set` shows.
-/

namespace GraphMapper

open Cypher Preparing

variable {registry : Registry} {levels : Nat} {model target : EntityType} {rel : Relationship}
  {bag : Bag} {names : List String}

/-- A bag at the far side of a prepared item was prepared from one at the far side of the item. -/
theorem exists_farSide?_of_prepareItem {far : Bag → Preparing Bag} {item after : Value}
    {others : Bag} (h : (prepareItem far rel item).Yields after)
    (hfar : farSide? rel after = some (.map others)) :
    ∃ entries, farSide? rel item = some (.map entries) ∧ (far entries).Yields others := by
  cases item with
  | map entries =>
    cases hshape : rel.shape.isRelationship with
    | true =>
      obtain ⟨kept, ⟨found, prepared, hfound, hprepared, rfl⟩ | ⟨-, rfl⟩⟩ :=
        held_of_prepareItem hshape h
      · simp only [farSide?, hshape, if_true, Value.entries?, Option.bind_some,
          KeyedList.get?_put] at hfar ⊢
        cases hfar
        exact ⟨found, hfound, hprepared⟩
      · simp [farSide?, hshape, Value.entries?, KeyedList.get?_remove] at hfar
    | false =>
      obtain ⟨prepared, hprepared, rfl⟩ := direct_of_prepareItem hshape h
      simp only [farSide?, hshape, Bool.false_eq_true, if_false] at hfar ⊢
      cases hfar
      exact ⟨entries, rfl, hprepared⟩
  | _ =>
    -- What is no bag has no bag at its far side.
    rw [← h.of_pure] at hfar
    cases isSome_entries?_of_farSide? hfar

/-- An item that a hop leads to was prepared from the one that the hop led to. -/
theorem exists_item?_of_prepareRelated {far : Bag → Preparing Bag} {hop : Hop}
    {value after other : Value} (h : (prepareRelated far rel value).Yields after)
    (hother : hop.item? after = some other) :
    ∃ item, hop.item? value = some item ∧ (prepareItem far rel item).Yields other := by
  cases hvalue : value.items? with
  | some items =>
    obtain rfl := Value.items?_eq_some.mp hvalue
    obtain ⟨others, rfl, hothers⟩ := exists_of_prepareRelated_list h
    obtain ⟨index, hindex, hget⟩ := Option.bind_eq_some_iff.mp hother
    obtain ⟨item, hitem, hprepared⟩ := getElem?_of_forall₂ hothers.flip hget
    exact ⟨item, by rw [Hop.item?, hindex, Option.bind_some, hitem], hprepared⟩
  | none =>
    have hprepared := prepareItem_of_not_list hvalue h
    rw [item?_of_not_list (items?_of_prepareItem hprepared hvalue)] at hother
    split at hother
    · next hnone =>
      cases hother
      exact ⟨value, by rw [item?_of_not_list hvalue, if_pos hnone], hprepared⟩
    · cases hother

/-- A bag that a hop leads to in a prepared payload was prepared from the one that it led to. -/
theorem exists_lead?_of_prepare {prepared others : Bag} {hop : Hop}
    (h : (prepare registry (levels + 1) model bag).Yields prepared)
    (hlead : hop.lead? model prepared = some (rel, .map others))
    (htarget : registry.target? rel = some target) :
    ∃ entries, hop.lead? model bag = some (rel, .map entries) ∧
      (prepare registry levels target entries).Yields others := by
  obtain ⟨after, other, hrel, hafter, hother, hfar⟩ := lead?_eq_some.mp hlead
  obtain ⟨hmem, -⟩ := NamedList.of_find?_eq_some hrel
  obtain ⟨checked, hchecked, hbelow⟩ := exists_preparedBelow h
  obtain ⟨note, hfilled, -⟩ := exists_filled hchecked
  cases hvalue : KeyedList.get? checked rel.name with
  | none =>
    rw [hbelow.absent rel hmem hvalue] at hafter
    cases hafter
  | some value =>
    obtain ⟨after', hafter', hunder⟩ := hbelow.under rel hmem value hvalue
    rw [hafter] at hafter'
    cases hafter'
    rw [PreparedUnder, htarget] at hunder
    obtain ⟨item, hitem, hprepared⟩ := exists_item?_of_prepareRelated hunder hother
    obtain ⟨entries, hentries, hfarPrepared⟩ := exists_farSide?_of_prepareItem hprepared hfar
    exact ⟨entries, hfilled.lead?_bag (lead?_eq_some.mpr ⟨value, item, hrel, hvalue, hitem,
      hentries⟩), hfarPrepared⟩

/-- A bag that hops lead to in a prepared payload was prepared from the one that they led to. -/
theorem exists_bagAt?_of_prepare {owner : EntityType} {prepared others : Bag} {path : List Hop}
    (h : (prepare registry levels model bag).Yields prepared)
    (hothers : bagAt? registry model prepared path = some (owner, others))
    (hpath : path.length ≤ levels) :
    ∃ inner, bagAt? registry model bag path = some (owner, inner) ∧
      (prepare registry (levels - path.length) owner inner).Yields others := by
  -- A hop to a prepared bag led to a bag, which was prepared for one level less.
  induction path generalizing levels model bag prepared with
  | nil =>
    cases hothers
    exact ⟨bag, rfl, h⟩
  | cons hop rest ih =>
    obtain ⟨levels, rfl⟩ : ∃ fewer, levels = fewer + 1 :=
      ⟨levels - 1, by rw [List.length_cons] at hpath; omega⟩
    obtain ⟨rel, entries, target, hlead, htarget, hothers⟩ := bagAt?_cons_eq_some.mp hothers
    obtain ⟨far, hfar, hprepared⟩ := exists_lead?_of_prepare h hlead htarget
    have hrest : rest.length ≤ levels := by
      rw [List.length_cons] at hpath
      omega
    obtain ⟨inner, hinner, hyields⟩ := ih hprepared hothers hrest
    refine ⟨inner, bagAt?_cons_eq_some.mpr ⟨rel, far, target, hfar, htarget, hinner⟩, ?_⟩
    rw [List.length_cons, Nat.add_sub_add_right]
    exact hyields

/-- What is filled in in a bag that gives a key is set on creation only. -/
theorem not_mem_keys_of_filled {prepared : Bag} (hplain : Plain model) (hkeys : givesKey model bag)
    (h : (prepare registry levels model bag).Yields prepared) {name : String}
    (hname : name ∈ filledNames model bag) {part : Part} (hpart : part ≠ .onCreate) :
    name ∉ KeyedList.keys ((splitProperties .merge model prepared).part part) := by
  obtain ⟨note, checked, hfilled, hsame, hnote⟩ := exists_filled_of_prepare h
  rw [hnote hplain.neverNull] at hfilled
  -- A bag agrees with itself but for what was filled in in it.
  have hagree := (hfilled.agree hfilled hkeys).congr hsame hsame
  rw [← KeyedList.get?_eq_none_iff, get?_splitProperties]
  cases hp : model.property? name with
  | none => rfl
  | some p =>
    obtain ⟨hmem, rfl⟩ := EntityType.of_property?_eq_some hp
    rw [Option.bind_some, hagree.partOf_filled hmem hname, if_neg (Ne.symm hpart)]

/-- The draft of the query that writes a payload which needs no more preparation. -/
def Mapper.writeDraft (mapper : Mapper) (mode : WriteMode) (model : EntityType) (payload : Bag) :
    Except MapperError Draft := do
  let plan ← (WritePlan.ofPayload mapper.registry mapper.config.writeLimit mode rootVar model
    payload).mapError .compile
  let expression ← mapper.returned rootVar model
  (Draft.run {} (plan.steps ++ [.carry [rootVar], .returning [expression]])).mapError .fault

/-- The query that writes a payload is that of its draft. -/
theorem Mapper.writeQuery_eq (mapper : Mapper) (mode : WriteMode) (model : EntityType)
    (payload : Bag) : mapper.writeQuery mode model payload =
      (mapper.writeDraft mode model payload).map Draft.query := by
  unfold Mapper.writeQuery Mapper.writeDraft Mapper.queryOf
  cases (WritePlan.ofPayload mapper.registry mapper.config.writeLimit mode rootVar model
    payload).mapError MapperError.compile with
  | error e => rfl
  | ok plan =>
    cases mapper.returned rootVar model with
    | error e => rfl
    | ok expression =>
      simp only [bind, Except.bind]
      cases Draft.run {} (plan.steps ++ [.carry [rootVar], .returning [expression]]) <;> rfl

/-- Twins end as queries with the same text. -/
theorem text_eq_of_twins {draft other : Draft} (h : Twins names draft other) :
    other.query.text = draft.query.text := by
  rw [Draft.query, Draft.query, h.statements]

/-- Plans that are equal, once the values set on creation are erased, are drafted alike. -/
theorem steps_erase {plan other : WritePlan} (h : SamePlan plan other) (more : List Step) :
    (other.steps ++ more).map Step.erase = (plan.steps ++ more).map Step.erase := by
  have hsteps : other.steps.map Step.erase = plan.steps.map Step.erase := by
    rw [WritePlan.steps, WritePlan.steps, ← WritePlan.erase_stepsIn, ← WritePlan.erase_stepsIn, h]
  rw [List.map_append, List.map_append, hsteps]

section

variable {mapper : Mapper} {payload prepared other : Bag} {supply supply' rest rest' : Supply}

/-- Prepared payloads with plans that agree are drafted as twins. -/
theorem writeDraft_twins (hplans : SameOutcome SamePlan
      (WritePlan.ofPayload mapper.registry mapper.config.writeLimit .merge rootVar model prepared)
      (WritePlan.ofPayload mapper.registry mapper.config.writeLimit .merge rootVar model other)) :
    SameOutcome (fun draft draft' => draft'.query.text = draft.query.text ∧
        Twins draft.created draft draft')
      (mapper.writeDraft .merge model prepared) (mapper.writeDraft .merge model other) := by
  unfold Mapper.writeDraft
  refine (hplans.mapError MapperError.compile).bind fun plan plan' hplan => ?_
  -- The expression that is returned depends on the type alone.
  have hreturned : SameOutcome Eq (mapper.returned rootVar model)
      (mapper.returned rootVar model) := .refl fun _ => rfl
  refine hreturned.bind fun expression _ hexpression => ?_
  subst hexpression
  have hempty : Twins (Draft.created {}) {} {} := Twins.refl {}
  have hrun := run_twins hempty (steps_erase hplan [.carry [rootVar], .returning [expression]])
  exact (hrun.imp fun draft draft' _ htwins => ⟨text_eq_of_twins htwins, htwins⟩).mapError
    MapperError.fault

/-- A node of the plan of a prepared payload is that of a bag of the payload, and writes nothing of
what was filled in there but on creation. -/
theorem exists_place_of_filled {limit : WriteLimit} {var : String} {plan node : WritePlan}
    (hmodel : model ∈ registry.models) (hplain : ∀ model ∈ registry.models, Plain model)
    (hkeys : GivesKeys registry levels model payload)
    (h : (prepare registry levels model payload).Yields prepared)
    (hplan : planNode registry limit levels .merge var model prepared = .ok plan)
    (hnode : node ∈ plan.nodes) :
    ∃ path owner bag, bagAt? registry model payload path = some (owner, bag) ∧
      plan.nodeAt? path = some node ∧ ∀ name ∈ filledNames owner bag,
        name ∉ KeyedList.keys node.split.inline ∧ name ∉ KeyedList.keys node.split.set := by
  obtain ⟨path, owner, others, hpath, hothers, hnodeAt, hsplit⟩ :=
    exists_place_of_mem_nodes hplan hnode
  obtain ⟨bag, hbag, hprepared⟩ := exists_bagAt?_of_prepare h hothers hpath
  have howner := hplain owner (mem_models_of_bagAt? hmodel hbag)
  have hgives := hkeys path owner bag hpath hbag
  refine ⟨path, owner, bag, hbag, hnodeAt, fun name hname => ?_⟩
  rw [hsplit]
  exact ⟨@not_mem_keys_of_filled _ _ _ _ _ howner hgives hprepared name hname .inline (by decide),
    @not_mem_keys_of_filled _ _ _ _ _ howner hgives hprepared name hname .set (by decide)⟩

/-- What is filled in never influences what a merge matches or overwrites, at any depth. A payload
in which every bag gives a value by which a merge may find its entity is prepared from two supplies
of identifiers and results of generators. Then both preparations are refused for the same reason, or
they are drafted as queries with the same text, the parameters of which differ at most under names
that stand in items set on creation. Every node of the plan is that of a bag of the payload, and
writes none of what was filled in in that bag in the pattern, or in what is set in any case. -/
theorem merge_independent_of_filled (hmodel : model ∈ mapper.registry.models)
    (hplain : ∀ model ∈ mapper.registry.models, Plain model)
    (hkeys : GivesKeys mapper.registry mapper.config.maxWriteDepth model payload)
    (h : (prepare mapper.registry mapper.config.maxWriteDepth model payload).run.run supply =
      (.ok prepared, rest))
    (h' : (prepare mapper.registry mapper.config.maxWriteDepth model payload).run.run supply' =
      (.ok other, rest')) :
    SameOutcome (fun draft draft' => draft'.query.text = draft.query.text ∧
        Twins draft.created draft draft')
      (mapper.writeDraft .merge model prepared) (mapper.writeDraft .merge model other) ∧
    ∀ plan, WritePlan.ofPayload mapper.registry mapper.config.writeLimit .merge rootVar model
        prepared = .ok plan →
      ∀ node ∈ plan.nodes, ∃ path owner bag,
        bagAt? mapper.registry model payload path = some (owner, bag) ∧
        plan.nodeAt? path = some node ∧
        ∀ name ∈ filledNames owner bag,
          name ∉ KeyedList.keys node.split.inline ∧ name ∉ KeyedList.keys node.split.set := by
  have hyields : (prepare mapper.registry mapper.config.maxWriteDepth model payload).Yields
      prepared := ⟨supply, rest, h⟩
  have hyields' : (prepare mapper.registry mapper.config.maxWriteDepth model payload).Yields
      other := ⟨supply', rest', h'⟩
  refine ⟨writeDraft_twins ?_, fun plan hplan node hnode => ?_⟩
  · exact planNode_agree hplain hmodel hkeys hyields hyields'
  · exact exists_place_of_filled hmodel hplain hkeys hyields hplan hnode

end

/-- A device may be part of another one. Under the key stands the relationship, with the properties
that are given. -/
def deviceWhole (properties : List Property) : Relationship where
  name := "whole"
  shape := .relationship
  type := "PART_OF"
  direction := .outgoing
  target := .model "Device"
  properties := properties

/-- Devices are known by their serials, and have a tag, which is generated. -/
def device (properties : List Property) : EntityType where
  name := "Device"
  labels := ["Device"]
  properties := [Property.asPrimary { name := "serial", type := .string },
    { name := "tag", type := .uuid }]
  relationships := [deviceWhole properties]
  labels_ne_nil := by decide
  labels_ascending := by decide
  properties_nodup := by decide
  relationships_nodup := by simp
  keys_disjoint := by simp [deviceWhole, Property.asPrimary]
  primary_le_one := by decide

/-- The mapper of devices. -/
def devices (properties : List Property) : Mapper := ⟨⟨[device properties], by simp⟩, {}⟩

/-- A device that is part of another one, both without tags. -/
def wheel : Bag := [
  ("serial", .string "W1"),
  ("whole", .map [("node", .map [("serial", .string "B7")])])]

/-- A hop from a device leads to what it is part of. -/
theorem lead?_device {properties : List Property} {hop : Hop} {far : Value}
    (h : hop.lead? (device properties) bag = some (rel, far)) :
    rel = deviceWhole properties ∧ ∃ value item, KeyedList.get? bag "whole" = some value ∧
      hop.item? value = some item ∧ farSide? (deviceWhole properties) item = some far := by
  obtain ⟨value, item, hrel, hvalue, hitem, hfar⟩ := lead?_eq_some.mp h
  obtain ⟨hmem, -⟩ := NamedList.of_find?_eq_some hrel
  obtain rfl : rel = deviceWhole properties := List.mem_singleton.mp hmem
  exact ⟨rfl, value, item, hvalue, hitem, hfar⟩

/-- Both devices give their serials. -/
theorem givesKeys_wheel (properties : List Property) (levels : Nat) :
    GivesKeys (devices properties).registry levels (device properties) wheel := by
  intro path owner inner _ hinner
  cases path with
  | nil =>
    cases hinner
    rfl
  | cons hop rest =>
    obtain ⟨rel, entries, target, hlead, htarget, hinner⟩ := bagAt?_cons_eq_some.mp hinner
    obtain ⟨rfl, value, item, hvalue, hitem, hfar⟩ := lead?_device hlead
    cases hvalue
    simp only [Hop.item?] at hitem
    split at hitem
    · cases hitem
      cases hfar
      obtain rfl : target = device properties := (Option.some.inj htarget).symm
      -- The whole is part of nothing.
      cases rest with
      | nil =>
        cases hinner
        rfl
      | cons hop' rest =>
        obtain ⟨_, _, _, hlead', -⟩ := bagAt?_cons_eq_some.mp hinner
        obtain ⟨-, value, -, hvalue, -⟩ := lead?_device hlead'
        cases hvalue
    · cases hitem

/-- Devices have no generators of their own. -/
theorem neverNull_device (properties : List Property) :
    ∀ p ∈ (device properties).properties, p.NeverNull := by
  intro p hp results hdefault
  have hnone : p.defaultValue = none := by
    simp only [device, Property.asPrimary, List.mem_cons, List.not_mem_nil, or_false] at hp
    rcases hp with rfl | rfl <;> rfl
  rw [hnone] at hdefault
  cases hdefault

/-- A supply of one identifier over and over, of which some have been taken. -/
def onlyUuid (n taken : Nat) : Supply := { uuids := fun _ => ⟨n⟩, uuidsTaken := taken }

/-- The far bag of `wheel`, with a tag that was filled in. -/
def taggedWhole (tag : String) : Value :=
  .map [(defaultedKey, .list [.string "tag"]), ("serial", .string "B7"), ("tag", .string tag)]

/-- `wheel` with tags that were filled in. -/
def taggedWheel (tag : String) : Bag := [
  (defaultedKey, .list [.string "tag"]),
  ("serial", .string "W1"),
  ("tag", .string tag),
  ("whole", .map [("node", taggedWhole tag)])]

/-- The tags that devices get are set on creation only, where relationships have no properties. -/
theorem wheel_independent :
    ∃ draft draft',
      (prepare (devices []).registry (devices []).config.maxWriteDepth (device []) wheel).run.run
        (onlyUuid 0 0) = (.ok (taggedWheel "00000000-0000-0000-0000-000000000000"), onlyUuid 0 2) ∧
      (prepare (devices []).registry (devices []).config.maxWriteDepth (device []) wheel).run.run
        (onlyUuid 1 0) = (.ok (taggedWheel "00000000-0000-0000-0000-000000000001"), onlyUuid 1 2) ∧
      (devices []).writeDraft .merge (device [])
        (taggedWheel "00000000-0000-0000-0000-000000000000") = .ok draft ∧
      (devices []).writeDraft .merge (device [])
        (taggedWheel "00000000-0000-0000-0000-000000000001") = .ok draft' ∧
      draft.created = ["set_this_tag", "set_this_whole_node_tag"] ∧
      draft'.query.text = draft.query.text ∧ Twins draft.created draft draft' := by
  have hprepared : (prepare (devices []).registry (devices []).config.maxWriteDepth (device [])
      wheel).run.run (onlyUuid 0 0) =
        (.ok (taggedWheel "00000000-0000-0000-0000-000000000000"), onlyUuid 0 2) := rfl
  have hprepared' : (prepare (devices []).registry (devices []).config.maxWriteDepth (device [])
      wheel).run.run (onlyUuid 1 0) =
        (.ok (taggedWheel "00000000-0000-0000-0000-000000000001"), onlyUuid 1 2) := rfl
  have hdraft : ∃ draft, (devices []).writeDraft .merge (device [])
      (taggedWheel "00000000-0000-0000-0000-000000000000") = .ok draft ∧
        draft.created = ["set_this_tag", "set_this_whole_node_tag"] := ⟨_, rfl, rfl⟩
  have hplain : ∀ model ∈ (devices []).registry.models, Plain model := by
    intro model hmodel
    obtain rfl := List.mem_singleton.mp hmodel
    refine ⟨neverNull_device [], fun rel hrel _ => ?_⟩
    obtain rfl := List.mem_singleton.mp hrel
    rfl
  obtain ⟨hsame, -⟩ := merge_independent_of_filled (List.mem_singleton_self (device [])) hplain
    (givesKeys_wheel [] _) hprepared hprepared'
  obtain ⟨draft, hdraft, hcreated⟩ := hdraft
  generalize (devices []).writeDraft .merge (device [])
    (taggedWheel "00000000-0000-0000-0000-000000000001") = other at hsame ⊢
  rw [hdraft] at hsame
  cases hsame with
  | ok htwins => exact ⟨draft, _, hprepared, hprepared', hdraft, rfl, hcreated, htwins⟩

/-- A property with the name of the node key. -/
def nodeProperty : Property := { name := "node", type := .any }

/-- Where the relationship has a property with the name of its node key, the far bag is set as that
property in any case, with the tag that was generated for it. -/
theorem generated_tag_set :
    GivesKeys (devices [nodeProperty]).registry (devices [nodeProperty]).config.maxWriteDepth
      (device [nodeProperty]) wheel ∧
    (∀ p ∈ (device [nodeProperty]).properties, p.NeverNull) ∧
    (prepare (devices [nodeProperty]).registry (devices [nodeProperty]).config.maxWriteDepth
      (device [nodeProperty]) wheel).run.run (onlyUuid 0 0) =
        (.ok (taggedWheel "00000000-0000-0000-0000-000000000000"), onlyUuid 0 2) ∧
    (prepare (devices [nodeProperty]).registry (devices [nodeProperty]).config.maxWriteDepth
      (device [nodeProperty]) wheel).run.run (onlyUuid 1 0) =
        (.ok (taggedWheel "00000000-0000-0000-0000-000000000001"), onlyUuid 1 2) ∧
    ∃ draft draft',
      (devices [nodeProperty]).writeDraft .merge (device [nodeProperty])
        (taggedWheel "00000000-0000-0000-0000-000000000000") = .ok draft ∧
      (devices [nodeProperty]).writeDraft .merge (device [nodeProperty])
        (taggedWheel "00000000-0000-0000-0000-000000000001") = .ok draft' ∧
      draft.created = ["set_this_tag", "set_this_whole_node_tag"] ∧
      (draft.references .set).map Prod.snd = ["set_this_whole_rel_node"] ∧
      KeyedList.get? draft.params "set_this_whole_rel_node" =
        some (taggedWhole "00000000-0000-0000-0000-000000000000") ∧
      KeyedList.get? draft'.params "set_this_whole_rel_node" =
        some (taggedWhole "00000000-0000-0000-0000-000000000001") :=
  ⟨givesKeys_wheel _ _, neverNull_device _, rfl, rfl, _, _, rfl, rfl, rfl, rfl, rfl, rfl⟩

end GraphMapper
