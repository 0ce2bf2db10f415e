import GraphMapper.Proofs.Schema.Declarations
import GraphMapper.Proofs.Value
import GraphMapper.Proofs.Write.Bags

/-!
# Places in a payload

A payload is a tree of bags. A hop leads from a bag to the far side of one item under a relationship
key, and a row of hops leads to a bag below the root. A plan has a node for the bag that hops lead
to (`exists_nodeAt`) and no other nodes (`exists_place_of_mem_nodes`), and obtains a reference that
one more hop leads to as what it stands for (`targetAt?_of_reference`).
-/

namespace GraphMapper

open Cypher

/-- A step from a bag to one related item: the key of the relationship and, where a list is under
it, the place in the list. -/
structure Hop where
  name : String
  index : Option Nat := none

/-- The item that a hop leads to, of what is under the key. -/
def Hop.item? (hop : Hop) : Value → Option Value
  | .list items => hop.index.bind fun index => items[index]?
  | value => if hop.index.isNone then some value else none

/-- The far side of an item: the item itself or, where the relationship itself is held, what stands
under the key of the far node. -/
def farSide? (rel : Relationship) (item : Value) : Option Value :=
  if rel.shape.isRelationship then item.entries?.bind (KeyedList.get? · rel.nodeKey) else some item

/-- What a hop leads to from a bag: the relationship, and the far side of the item. -/
def Hop.lead? (hop : Hop) (model : EntityType) (bag : Bag) : Option (Relationship × Value) :=
  (model.relationship? hop.name).bind fun rel =>
    (KeyedList.get? bag rel.name).bind fun value =>
      (hop.item? value).bind fun item => (farSide? rel item).map (rel, ·)

/-- The bag that a row of hops leads to, and the type it is written as. -/
def bagAt? (registry : Registry) : EntityType → Bag → List Hop → Option (EntityType × Bag)
  | model, bag, [] => some (model, bag)
  | model, bag, hop :: rest =>
    match hop.lead? model bag with
    | some (rel, .map entries) =>
      (registry.target? rel).bind fun target => bagAt? registry target entries rest
    | _ => none

/-- The far side that hops and one more lead to, with the relationship it stands under. -/
def farAt? (registry : Registry) (model : EntityType) (bag : Bag) (path : List Hop) (hop : Hop) :
    Option (Relationship × Value) :=
  (bagAt? registry model bag path).bind fun inner => hop.lead? inner.1 inner.2

/-- Whether a far side refers to an entity that is there already. -/
def Value.isReference : Value → Bool
  | .node _ _ _ => true
  | value => value.isScalar

/-- What a reference stands for under a variable: a node for the entity of its identity, and a
scalar for the one with that primary key. -/
def referenceTarget? (target : EntityType) (var : String) : Value → Option WriteTarget
  | .node identity _ _ => some (.existing var identity)
  | value =>
    if value.isScalar then
      target.primaryKey?.map fun key => .reference var target.labels key value
    else none

/-- The variable of the entity that a row of hops leads to. -/
def varAt (registry : Registry) : EntityType → String → List Hop → String
  | _, var, [] => var
  | model, var, hop :: rest =>
    match model.relationship? hop.name with
    | none => var
    | some rel =>
      match registry.target? rel with
      | none => var
      | some target => varAt registry target (farVar var rel (hop.index.getD 0)) rest

/-- The link of a plan for the item that a hop leads to. -/
def WritePlan.linkAt? (plan : WritePlan) (hop : Hop) : Option WriteLink :=
  (plan.links.filter fun link => link.name = hop.name)[hop.index.getD 0]?

/-- The node of a plan for the bag that a row of hops leads to. -/
def WritePlan.nodeAt? (plan : WritePlan) : List Hop → Option WritePlan
  | [] => some plan
  | hop :: rest =>
    match (plan.linkAt? hop).map WriteLink.target with
    | some (.nested node) => node.nodeAt? rest
    | _ => none

/-- How a plan obtains what one more hop leads to. -/
def WritePlan.targetAt? (plan : WritePlan) (path : List Hop) (hop : Hop) : Option WriteTarget :=
  (plan.nodeAt? path).bind fun node => (node.linkAt? hop).map WriteLink.target

variable {registry : Registry} {limit : WriteLimit} {levels : Nat} {mode : WriteMode}
  {var : String} {model target : EntityType} {rel : Relationship} {bag : Bag} {plan : WritePlan}
  {hop : Hop}

/-- A hop leads to the far side of the item at its place. -/
theorem lead?_eq_some {far : Value} :
    hop.lead? model bag = some (rel, far) ↔
      ∃ value item, model.relationship? hop.name = some rel ∧
        KeyedList.get? bag rel.name = some value ∧ hop.item? value = some item ∧
        farSide? rel item = some far := by
  simp only [Hop.lead?, Option.bind_eq_some_iff, Option.map_eq_some_iff, Prod.mk.injEq]
  constructor
  · rintro ⟨_, hrel, value, hvalue, item, hitem, _, hfar, rfl, rfl⟩
    exact ⟨value, item, hrel, hvalue, hitem, hfar⟩
  · rintro ⟨value, item, hrel, hvalue, hitem, hfar⟩
    exact ⟨rel, hrel, value, hvalue, item, hitem, far, hfar, rfl, rfl⟩

/-- One more hop leads to a bag from the bag behind the first hop. -/
theorem bagAt?_cons_eq_some {path : List Hop} {found : EntityType × Bag} :
    bagAt? registry model bag (hop :: path) = some found ↔
      ∃ rel entries target, hop.lead? model bag = some (rel, .map entries) ∧
        registry.target? rel = some target ∧ bagAt? registry target entries path = some found := by
  constructor
  · intro h
    unfold bagAt? at h
    split at h
    · next rel entries hlead =>
      obtain ⟨target, htarget, hrest⟩ := Option.bind_eq_some_iff.mp h
      exact ⟨rel, entries, target, hlead, htarget, hrest⟩
    · cases h
  · rintro ⟨rel, entries, target, hlead, htarget, hrest⟩
    simpa only [bagAt?, hlead, htarget, Option.bind_some] using hrest

/-- The types of bags that hops lead to are registered. -/
theorem mem_models_of_bagAt? (hmodel : model ∈ registry.models) {path : List Hop}
    {owner : EntityType} {inner : Bag} (h : bagAt? registry model bag path = some (owner, inner)) :
    owner ∈ registry.models := by
  induction path generalizing model bag with
  | nil =>
    cases h
    exact hmodel
  | cons hop rest ih =>
    obtain ⟨_, _, target, _, htarget, hrest⟩ := bagAt?_cons_eq_some.mp h
    exact ih (mem_models_of_target? htarget) hrest

/-- The variable behind one more hop is that of the far node. -/
theorem varAt_cons {path : List Hop} (hrel : model.relationship? hop.name = some rel)
    (htarget : registry.target? rel = some target) :
    varAt registry model var (hop :: path) =
      varAt registry target (farVar var rel (hop.index.getD 0)) path := by
  simp only [varAt, hrel, htarget]

/-- Behind a link to a nested plan are the nodes of that plan. -/
theorem nodeAt?_cons {path : List Hop} {link : WriteLink} {inside : WritePlan}
    (hlink : plan.linkAt? hop = some link) (hinside : link.target = .nested inside) :
    plan.nodeAt? (hop :: path) = inside.nodeAt? path := by
  simp only [WritePlan.nodeAt?, hlink, Option.map_some, hinside]

/-- An item is split where it has a far side, and into that. -/
theorem farSide?_eq_some {item far : Value} :
    farSide? rel item = some far ↔
      ∃ properties, splitItem model rel item = .ok (far, properties) := by
  unfold farSide? splitItem
  split
  · cases item with
    | map entries =>
      simp only [Value.entries?, Option.bind_some]
      cases KeyedList.get? entries rel.nodeKey <;> simp
    | _ => simp [Value.entries?]
  · simp

/-- The far side of an item whose relationship is held stands in a bag. -/
theorem exists_held {item far : Value} (hshape : rel.shape.isRelationship = true)
    (hfar : farSide? rel item = some far) :
    ∃ held, item = .map held ∧ KeyedList.get? held rel.nodeKey = some far := by
  rw [farSide?, if_pos hshape] at hfar
  obtain ⟨held, hheld, hget⟩ := Option.bind_eq_some_iff.mp hfar
  cases item with
  | map entries =>
    obtain rfl : entries = held := Option.some.inj hheld
    exact ⟨entries, rfl, hget⟩
  | _ => cases hheld

/-- Where the relationship is not held, the far side is the item. -/
theorem farSide?_of_not_isRelationship (hshape : rel.shape.isRelationship = false) (item : Value) :
    farSide? rel item = some item := by
  simp [farSide?, hshape]

/-- An item with a bag for its far side is a bag. -/
theorem isSome_entries?_of_farSide? {item : Value} {entries : Bag}
    (h : farSide? rel item = some (.map entries)) : item.entries?.isSome := by
  unfold farSide? at h
  split at h
  · cases item <;> simp_all [Value.entries?]
  · cases h
    rfl

/-- What is no list is one item, whatever the shape. -/
theorem relatedItems_of_not_list {shape : Shape} {value : Value} (h : value.items? = none) :
    relatedItems shape value = [value] := by
  cases value with
  | list items => cases h
  | _ => rfl

/-- A node key that is not declared is no property of the relationship, whatever stands there. -/
theorem linkProperties_put (hnode : rel.property? rel.nodeKey = none) (kept : Bag)
    (value : Value) :
    linkProperties rel (KeyedList.put kept rel.nodeKey value) = linkProperties rel kept := by
  induction kept with
  | nil => simp [KeyedList.put, linkProperties, hnode]
  | cons entry rest ih =>
    unfold linkProperties at ih ⊢
    simp only [KeyedList.put]
    split
    · next hkey => simp [← hkey, hnode]
    · split
      · simp [hnode]
      · rw [List.filter_cons, List.filter_cons, ih]

/-- What is no list is the item that a hop without index leads to. -/
theorem item?_of_not_list {value : Value} (h : value.items? = none) :
    hop.item? value = if hop.index.isNone then some value else none := by
  cases value <;> simp_all [Hop.item?, Value.items?]

/-- An item that is a list is refused. -/
theorem planItem_list (planBag : String → EntityType → Bag → Except CompileError WritePlan)
    (items : List Value) (index : Nat) :
    planItem planBag var model rel target (.list items, index) =
      .error (.invalidReference rel.name model.name "list") := by
  unfold planItem splitItem
  cases rel.shape.isRelationship with
  | true => rfl
  | false => rfl

/-- No far node is planned for a list. -/
theorem not_plannedFar_list {items : List Value} {far : WriteTarget} :
    ¬ PlannedFar registry limit levels target var (.list items) far := by
  rintro (_ | _ | ⟨_, _, hscalar, -⟩)
  simp [Value.isScalar] at hscalar

/-- An item that is a list is not planned. -/
theorem not_plannedLink_list {items : List Value} {index : Nat} {link : WriteLink} :
    ¬ PlannedLink registry limit levels var model rel target (.list items, index) link := by
  rintro ⟨node, properties, far, hsplit, hfar, -⟩
  have hside := (@farSide?_eq_some model rel _ _).mpr ⟨properties, hsplit⟩
  unfold farSide? at hside
  split at hside
  · simp [Value.entries?] at hside
  · cases hside
    exact not_plannedFar_list hfar

/-- What is planned is no list. -/
theorem items?_of_plannedLink {item : Value} {index : Nat} {link : WriteLink}
    (h : PlannedLink registry limit levels var model rel target (item, index) link) :
    item.items? = none := by
  cases item with
  | list items => exact absurd h not_plannedLink_list
  | _ => rfl

/-- Where what is under a key is planned, a hop leads to the item of its index. -/
theorem getElem?_relatedItems {value item : Value} {links : List WriteLink}
    (hitem : hop.item? value = some item)
    (hlinks : List.Forall₂ (PlannedLink registry limit levels var model rel target)
      (relatedItems rel.shape value).zipIdx links) :
    (relatedItems rel.shape value)[hop.index.getD 0]? = some item := by
  cases value with
  | list items =>
    cases hcollection : rel.shape.isCollection with
    | true =>
      obtain ⟨index, hindex, hget⟩ := Option.bind_eq_some_iff.mp hitem
      simpa [relatedItems, hcollection, hindex] using hget
    | false =>
      -- A list where one item belongs is refused as a whole.
      simp only [relatedItems, hcollection, Bool.false_eq_true, if_false, List.zipIdx_cons,
        List.zipIdx_nil] at hlinks
      cases hlinks with
      | cons hlink _ => exact absurd hlink not_plannedLink_list
  | _ =>
    simp only [Hop.item?] at hitem
    split at hitem
    · next hnone =>
      cases hitem
      simp [relatedItems, Option.isNone_iff_eq_none.mp hnone]
    · cases hitem

/-- The links that are planned for a relationship have its name. -/
theorem name_of_plannedLinks {links : List WriteLink}
    (h : PlannedLinks registry limit levels var model bag rel links) :
    ∀ link ∈ links, link.name = rel.name := by
  intro link hlink
  unfold PlannedLinks at h
  split at h
  · simp [h] at hlink
  · obtain ⟨target, -, hitems⟩ := h
    obtain ⟨item, -, node, properties, far, -, -, rfl⟩ := exists_of_forall₂_right hitems hlink
    rfl

/-- The links that are planned for several relationships have their names. -/
theorem name_mem_of_plannedLinks {rels : List Relationship} {links : List (List WriteLink)}
    (h : List.Forall₂ (PlannedLinks registry limit levels var model bag) rels links)
    {link : WriteLink} (hlink : link ∈ links.flatten) :
    link.name ∈ rels.map Relationship.name := by
  obtain ⟨planned, hplanned, hlink⟩ := List.mem_flatten.mp hlink
  obtain ⟨rel, hrel, hlinks⟩ := exists_of_forall₂_right h hplanned
  rw [name_of_plannedLinks hlinks link hlink]
  exact List.mem_map_of_mem hrel

/-- Of the links of all relationships, those of one name are the ones planned for it. -/
theorem filter_flatten_links {rels : List Relationship} {links : List (List WriteLink)}
    (h : List.Forall₂ (PlannedLinks registry limit levels var model bag) rels links)
    (hnodup : (rels.map Relationship.name).Nodup) (hrel : rel ∈ rels) :
    PlannedLinks registry limit levels var model bag rel
      (links.flatten.filter fun link => link.name = rel.name) := by
  induction h with
  | nil => simp at hrel
  | @cons head planned rels links hhead hrest ih =>
    rw [List.map_cons, List.nodup_cons] at hnodup
    have hnames := name_of_plannedLinks hhead
    rw [List.flatten_cons, List.filter_append]
    rcases List.mem_cons.mp hrel with rfl | hrel
    -- The names are distinct, so that no other row has links of this name.
    · have hself : planned.filter (fun link => link.name = rel.name) = planned := by
        simpa [List.filter_eq_self] using hnames
      have hnone : links.flatten.filter (fun link => link.name = rel.name) = [] := by
        refine List.filter_eq_nil_iff.mpr fun link hlink => ?_
        have hmem := name_mem_of_plannedLinks hrest hlink
        simp only [decide_eq_true_eq]
        exact fun hname => hnodup.1 (hname ▸ hmem)
      rw [hself, hnone, List.append_nil]
      exact hhead
    · have hne : head.name ≠ rel.name := fun hname =>
        hnodup.1 (hname ▸ List.mem_map_of_mem hrel)
      have hnone : planned.filter (fun link => link.name = rel.name) = [] := by
        refine List.filter_eq_nil_iff.mpr fun link hlink => ?_
        simp [hnames link hlink, hne]
      rw [hnone, List.nil_append]
      exact ih hnodup.2 hrel

/-- A plan has a link for the item that a hop leads to, unless that is null. -/
theorem exists_linkAt {value item : Value}
    (h : planNode registry limit (levels + 1) mode var model bag = .ok plan)
    (hrel : model.relationship? hop.name = some rel)
    (hvalue : KeyedList.get? bag rel.name = some value) (hitem : hop.item? value = some item)
    (hnull : item.isNull = false) :
    ∃ target link, registry.target? rel = some target ∧ plan.linkAt? hop = some link ∧
      PlannedLink registry limit levels var model rel target (item, hop.index.getD 0) link := by
  obtain ⟨hmem, hname⟩ := NamedList.of_find?_eq_some hrel
  obtain ⟨links, hlinks, rfl⟩ := planNode_succ_eq_ok.mp h
  have hplanned := filter_flatten_links hlinks model.relationships_nodup hmem
  have hpresent : bag.present? rel.name = some value := by
    have hvalueNull : value.isNull = false := by
      cases value with
      | null =>
        simp only [Hop.item?] at hitem
        split at hitem
        · cases hitem
          exact hnull
        · cases hitem
      | _ => rfl
    simp [Bag.present?, hvalue, hvalueNull]
  unfold PlannedLinks at hplanned
  rw [hpresent] at hplanned
  obtain ⟨target, htarget, hitems⟩ := hplanned
  have hget := getElem?_relatedItems hitem hitems
  have hzip : (relatedItems rel.shape value).zipIdx[hop.index.getD 0]? =
      some (item, hop.index.getD 0) := by
    simp [List.getElem?_zipIdx, hget]
  obtain ⟨link, hlink, hplannedLink⟩ := getElem?_of_forall₂ hitems hzip
  refine ⟨target, link, htarget, ?_, hplannedLink⟩
  rw [WritePlan.linkAt?, ← hname]
  exact hlink

/-- The link for the item that a hop leads to obtains its far side as that is planned. -/
theorem exists_linkAt_of_lead {far : Value}
    (h : planNode registry limit (levels + 1) mode var model bag = .ok plan)
    (hlead : hop.lead? model bag = some (rel, far)) (hnull : far.isNull = false) :
    ∃ target link, registry.target? rel = some target ∧ plan.linkAt? hop = some link ∧
      PlannedFar registry limit levels target (farVar var rel (hop.index.getD 0)) far
        link.target := by
  obtain ⟨value, item, hrel, hvalue, hitem, hfar⟩ := lead?_eq_some.mp hlead
  have hitemNull : item.isNull = false := by
    unfold farSide? at hfar
    cases item with
    | null =>
      split at hfar
      · simp [Value.entries?] at hfar
      · cases hfar
        exact hnull
    | _ => rfl
  obtain ⟨target, link, htarget, hlink, node, properties, planned, hsplit, hplanned, rfl⟩ :=
    exists_linkAt h hrel hvalue hitem hitemNull
  obtain ⟨_, hside⟩ := (@farSide?_eq_some model rel _ _).mp hfar
  rw [hside] at hsplit
  cases hsplit
  exact ⟨target, _, htarget, hlink, hplanned⟩

/-- A plan has a node for the bag that hops lead to, which is planned like a payload of its own. -/
theorem exists_nodeAt {owner : EntityType} {inner : Bag} {path : List Hop}
    (h : planNode registry limit levels mode var model bag = .ok plan)
    (hinner : bagAt? registry model bag path = some (owner, inner)) (hpath : path.length ≤ levels) :
    ∃ mode node, plan.nodeAt? path = some node ∧
      planNode registry limit (levels - path.length) mode (varAt registry model var path) owner
        inner = .ok node := by
  -- A hop to a bag leads to a nested plan, which is planned for one level less.
  induction path generalizing levels mode var model bag plan with
  | nil =>
    cases hinner
    exact ⟨mode, plan, rfl, h⟩
  | cons hop rest ih =>
    obtain ⟨levels, rfl⟩ : ∃ fewer, levels = fewer + 1 :=
      ⟨levels - 1, by rw [List.length_cons] at hpath; omega⟩
    obtain ⟨rel, entries, target, hlead, htarget, hinner⟩ := bagAt?_cons_eq_some.mp hinner
    obtain ⟨target', link, htarget', hlink, hplanned⟩ := exists_linkAt_of_lead h hlead rfl
    obtain rfl : target = target' := by
      rw [htarget] at htarget'
      exact Option.some.inj htarget'
    obtain ⟨value, item, hrel, -⟩ := lead?_eq_some.mp hlead
    generalize hfar : link.target = far at hplanned
    cases hplanned with
    | nested entries inside hinside =>
      have hrest : rest.length ≤ levels := by
        rw [List.length_cons] at hpath
        omega
      obtain ⟨mode', node, hnode, hplan⟩ := ih hinside hinner hrest
      refine ⟨mode', node, (nodeAt?_cons hlink hfar).trans hnode, ?_⟩
      rw [varAt_cons hrel htarget, List.length_cons, Nat.add_sub_add_right]
      exact hplan
    | reference value key hscalar hkey => simp [Value.isScalar] at hscalar

/-- A hop leads to each item under a key that is no list. -/
theorem exists_hop_of_relatedItems {value item : Value} {index : Nat}
    (hitem : (relatedItems rel.shape value)[index]? = some item) (hlist : item.items? = none) :
    ∃ hop : Hop, hop.name = rel.name ∧ hop.index.getD 0 = index ∧ hop.item? value = some item := by
  have hsingle : ∀ value : Value, [value][index]? = some item → index = 0 ∧ item = value := by
    intro value h
    obtain ⟨hindex, h⟩ := List.getElem?_eq_some_iff.mp h
    obtain rfl : index = 0 := by simpa using hindex
    exact ⟨rfl, h.symm⟩
  cases value with
  | list items =>
    simp only [relatedItems] at hitem
    split at hitem
    · exact ⟨⟨rel.name, some index⟩, rfl, rfl, hitem⟩
    · obtain ⟨-, rfl⟩ := hsingle _ hitem
      cases hlist
  | _ =>
    obtain ⟨rfl, rfl⟩ := hsingle _ hitem
    exact ⟨⟨rel.name, none⟩, rfl, rfl, rfl⟩

/-- A hop leads to the far side of each item under the key of a relationship. -/
theorem exists_lead_of_relatedItems {value item far : Value} {index : Nat}
    (hrel : rel ∈ model.relationships) (hvalue : KeyedList.get? bag rel.name = some value)
    (hitem : (relatedItems rel.shape value)[index]? = some item) (hlist : item.items? = none)
    (hfar : farSide? rel item = some far) :
    ∃ hop : Hop, hop.name = rel.name ∧ hop.index.getD 0 = index ∧
      hop.lead? model bag = some (rel, far) := by
  obtain ⟨hop, hname, hindex, hlead⟩ := exists_hop_of_relatedItems hitem hlist
  have hfound : model.relationship? hop.name = some rel :=
    hname ▸ NamedList.find?_of_mem model.relationships_nodup hrel
  exact ⟨hop, hname, hindex, lead?_eq_some.mpr ⟨value, item, hfound, hvalue, hlead, hfar⟩⟩

/-- A hop leads to the bag at the far side of each item under the key of a relationship. -/
theorem exists_lead_of_far_bag {value item : Value} {entries : Bag}
    (hrel : rel ∈ model.relationships) (hvalue : KeyedList.get? bag rel.name = some value)
    (hitem : item ∈ relatedItems rel.shape value) (hfar : farSide? rel item = some (.map entries)) :
    ∃ hop : Hop, hop.lead? model bag = some (rel, .map entries) := by
  obtain ⟨index, hindex⟩ := List.getElem?_of_mem hitem
  have hlist : item.items? = none := by
    have hbag := isSome_entries?_of_farSide? hfar
    cases item <;> simp_all [Value.entries?, Value.items?]
  obtain ⟨hop, -, -, hlead⟩ := exists_lead_of_relatedItems hrel hvalue hindex hlist hfar
  exact ⟨hop, hlead⟩

/-- A node that is written behind links is written behind one of them. -/
theorem exists_link_of_mem_linkNodes {links : List WriteLink} {node : WritePlan}
    (h : node ∈ linkNodes links) : ∃ link ∈ links, node ∈ link.target.nodes := by
  induction links with
  | nil => cases h
  | cons link rest ih =>
    obtain ⟨name, type, direction, relVar, properties, far⟩ := link
    rcases List.mem_append.mp h with h | h
    · exact ⟨_, List.mem_cons_self, h⟩
    · obtain ⟨link, hlink, hnode⟩ := ih h
      exact ⟨link, List.mem_cons_of_mem _ hlink, hnode⟩

/-- A link of a plan is the one for an item that a hop leads to. -/
theorem exists_lead_of_mem_links {link : WriteLink}
    (h : planNode registry limit (levels + 1) mode var model bag = .ok plan)
    (hlink : link ∈ plan.links) :
    ∃ (hop : Hop) (rel : Relationship) (target : EntityType) (node : Value),
      hop.lead? model bag = some (rel, node) ∧ registry.target? rel = some target ∧
      plan.linkAt? hop = some link ∧
      PlannedFar registry limit levels target (farVar var rel (hop.index.getD 0)) node
        link.target := by
  obtain ⟨links, hlinks, rfl⟩ := planNode_succ_eq_ok.mp h
  obtain ⟨planned, hplanned, hlink⟩ := List.mem_flatten.mp hlink
  obtain ⟨rel, hrel, hrelated⟩ := exists_of_forall₂_right hlinks hplanned
  have hname := name_of_plannedLinks hrelated link hlink
  have hfiltered := filter_flatten_links hlinks model.relationships_nodup hrel
  have hmem : link ∈ links.flatten.filter fun link => link.name = rel.name := by
    simpa [hname] using ⟨planned, hplanned, hlink⟩
  obtain ⟨index, hindex⟩ := List.getElem?_of_mem hmem
  unfold PlannedLinks at hfiltered
  split at hfiltered
  · rw [hfiltered] at hindex
    cases hindex
  · next value hvalue =>
    obtain ⟨target, htarget, hitems⟩ := hfiltered
    obtain ⟨⟨item, place⟩, hplace, hplannedLink⟩ := getElem?_of_forall₂ hitems.flip hindex
    obtain ⟨hitem, rfl⟩ : (relatedItems rel.shape value)[index]? = some item ∧ index = place := by
      simpa [List.getElem?_zipIdx] using hplace
    have hlist := items?_of_plannedLink hplannedLink
    obtain ⟨node, properties, far, hsplit, hfar, rfl⟩ := hplannedLink
    have hpresent := (present?_eq_some.mp hvalue).1
    obtain ⟨hop, hhop, hplaceOfHop, hlead⟩ := exists_lead_of_relatedItems hrel hpresent hitem hlist
      (farSide?_eq_some.mpr ⟨properties, hsplit⟩)
    refine ⟨hop, rel, target, node, hlead, htarget, ?_, ?_⟩
    · rw [WritePlan.linkAt?, hhop, hplaceOfHop]
      exact hindex
    · rw [hplaceOfHop]
      exact hfar

/-- Every node of a plan is planned like a payload of its own, for a bag that hops lead to. -/
theorem exists_planned_of_mem_nodes {node : WritePlan}
    (h : planNode registry limit levels mode var model bag = .ok plan)
    (hnode : node ∈ plan.nodes) :
    ∃ path owner inner, path.length ≤ levels ∧
      bagAt? registry model bag path = some (owner, inner) ∧ plan.nodeAt? path = some node ∧
      planNode registry limit (levels - path.length) (if path = [] then mode else .merge)
        (varAt registry model var path) owner inner = .ok node := by
  -- Behind a link to a nested plan the nodes are those of that plan, which has one level less.
  induction levels generalizing mode var model bag plan with
  | zero =>
    obtain ⟨-, hplan⟩ := planNode_zero_eq_ok.mp h
    rw [hplan] at hnode
    obtain rfl : node = plan := by
      rw [hplan]
      exact List.mem_singleton.mp hnode
    exact ⟨[], model, bag, Nat.zero_le 0, rfl, rfl, h⟩
  | succ levels ih =>
    obtain ⟨links, hlinks, hplan⟩ := planNode_succ_eq_ok.mp h
    rw [hplan] at hnode
    rcases List.mem_cons.mp hnode with hroot | hnode
    · obtain rfl : node = plan := hroot.trans hplan.symm
      exact ⟨[], model, bag, Nat.zero_le _, rfl, rfl, h⟩
    · obtain ⟨link, hlink, hnode⟩ := exists_link_of_mem_linkNodes hnode
      have hmem : link ∈ plan.links := by
        rw [hplan]
        exact hlink
      obtain ⟨hop, rel, target, value, hlead, htarget, hlinkAt, hfar⟩ :=
        exists_lead_of_mem_links h hmem
      generalize hlinkTarget : link.target = far at hnode hfar
      cases hfar with
      | existing => cases hnode
      | reference => cases hnode
      | nested entries inside hinside =>
        obtain ⟨path, owner, inner, hpath, hinner, hnodeAt, hplanned⟩ := ih hinside hnode
        obtain ⟨_, _, hrel, -⟩ := lead?_eq_some.mp hlead
        refine ⟨hop :: path, owner, inner, Nat.succ_le_succ hpath,
          bagAt?_cons_eq_some.mpr ⟨rel, _, target, hlead, htarget, hinner⟩,
          (nodeAt?_cons hlinkAt hlinkTarget).trans hnodeAt, ?_⟩
        rw [ite_self] at hplanned
        rw [varAt_cons hrel htarget, List.length_cons, Nat.add_sub_add_right,
          if_neg (List.cons_ne_nil hop path)]
        exact hplanned

/-- Every node of the plan of a merge is planned for a bag that hops lead to. -/
theorem exists_place_of_mem_nodes {node : WritePlan}
    (h : planNode registry limit levels .merge var model bag = .ok plan)
    (hnode : node ∈ plan.nodes) :
    ∃ path owner inner, path.length ≤ levels ∧
      bagAt? registry model bag path = some (owner, inner) ∧ plan.nodeAt? path = some node ∧
      node.split = splitProperties .merge owner inner := by
  obtain ⟨path, owner, inner, hpath, hinner, hnodeAt, hplanned⟩ :=
    exists_planned_of_mem_nodes h hnode
  rw [ite_self] at hplanned
  exact ⟨path, owner, inner, hpath, hinner, hnodeAt, (planNode_spec hplanned).2.2⟩

/-- A reference is no bag. -/
theorem Value.entries?_of_isReference {value : Value} (h : value.isReference = true) :
    value.entries? = none := by
  cases value <;> simp_all [isReference, isScalar, entries?]

/-- A reference is not null. -/
theorem Value.isNull_of_isReference {value : Value} (h : value.isReference = true) :
    value.isNull = false := by
  cases value <;> simp_all [isReference, isScalar, isNull]

/-- A reference is planned as what it stands for. -/
theorem referenceTarget?_of_plannedFar {value : Value} {far : WriteTarget}
    (hreference : value.isReference = true)
    (h : PlannedFar registry limit levels target var value far) :
    referenceTarget? target var value = some far := by
  cases h with
  | existing identity labels properties => rfl
  | nested entries plan hplan => simp [Value.isReference, Value.isScalar] at hreference
  | reference value key hscalar hkey =>
    cases value <;> simp_all [Value.isScalar, referenceTarget?]

/-- A reference in a payload is planned as what it stands for, under the variable of its place. -/
theorem targetAt?_of_reference {path : List Hop} {value : Value}
    (h : planNode registry limit levels mode var model bag = .ok plan)
    (hplace : farAt? registry model bag path hop = some (rel, value)) (hpath : path.length < levels)
    (hreference : value.isReference = true) :
    ∃ target found, registry.target? rel = some target ∧
      plan.targetAt? path hop = some found ∧
      referenceTarget? target (farVar (varAt registry model var path) rel (hop.index.getD 0))
        value = some found := by
  obtain ⟨⟨owner, inner⟩, hinner, hlead⟩ := Option.bind_eq_some_iff.mp hplace
  obtain ⟨mode', node, hnode, hplan⟩ := exists_nodeAt h hinner (Nat.le_of_lt hpath)
  obtain ⟨fewer, hfewer⟩ : ∃ fewer, levels - path.length = fewer + 1 :=
    ⟨levels - path.length - 1, by omega⟩
  rw [hfewer] at hplan
  obtain ⟨target, link, htarget, hlink, hplanned⟩ :=
    exists_linkAt_of_lead hplan hlead (Value.isNull_of_isReference hreference)
  refine ⟨target, link.target, htarget, ?_, referenceTarget?_of_plannedFar hreference hplanned⟩
  simp [WritePlan.targetAt?, hnode, hlink]

end GraphMapper
