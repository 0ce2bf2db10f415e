import GraphMapper.Proofs.Write.Likeness
import GraphMapper.Proofs.Write.Partition
import GraphMapper.Proofs.Write.Truncation

/-!
# What a scalar is short for

A scalar stands for the entity with that primary key, and so does the bag that has the scalar under
the primary key and nothing else. A payload writes out scalars of another one (`WritesOut`) if it
holds such bags in their places, at any levels and among any other related entities.

The two are planned to the same steps (`planNode_writesOut`), although a reference and a bag are
planned by different means: the bag is split, and all of it stands in the pattern (`planNode_key`).

The names that a bag notes stand under a reserved key. If a type declares a relationship there, a
text in a list is a scalar and a noted name at once, and it is no longer noted when it is written
out. `WritesOut` therefore asks that bags that are merged note the same of their properties, and
`ticket_note_written_out` shows that it has to.
-/

namespace GraphMapper

open Cypher

/-! ## Payloads that write scalars out -/

/-- A far side is left as it is; or it is a scalar, and the bag that it is short for is written; or
it is a bag, and one that writes out scalars of it is written. -/
inductive FarWritesOut (writesOut : Bag → Bag → Prop) (target : EntityType) : Value → Value → Prop
  | same (far : Value) : FarWritesOut writesOut target far far
  | scalar {value : Value} {key : String} (hscalar : value.isScalar)
      (hkey : target.primaryKey? = some key) :
      FarWritesOut writesOut target value (.map [(key, value)])
  | bag {bag other : Bag} (h : writesOut bag other) :
      FarWritesOut writesOut target (.map bag) (.map other)

/-- An item is left as it is, or gets another far side. -/
inductive ItemWritesOut (far : Value → Value → Prop) (rel : Relationship) (item : Value) :
    Value → Prop
  | same : ItemWritesOut far rel item item
  | far {before after : Value} (hbefore : farSide? rel item = some before)
      (h : far before after) : ItemWritesOut far rel item (item.putFar rel after)

/-- Under a relationship the items of a bag are written out one by one; where the target of the
relationship is not registered, it only counts whether there is anything. -/
def RelatedWritesOut (registry : Registry) (writesOut : EntityType → Bag → Bag → Prop)
    (bag other : Bag) (rel : Relationship) : Prop :=
  match registry.target? rel with
  | none => (other.present? rel.name).isSome = (bag.present? rel.name).isSome
  | some target =>
    Option.Rel (fun value value' =>
        List.Forall₂ (ItemWritesOut (FarWritesOut (writesOut target) target) rel)
          (relatedItems rel.shape value) (relatedItems rel.shape value'))
      (bag.present? rel.name) (other.present? rel.name)

/-- Of two bags for a type, what is related to the second one writes out scalars of what is related
to the first one. The properties are the same, and if the bags are merged, the same of them are
noted. -/
structure BagWritesOut (registry : Registry) (writesOut : EntityType → Bag → Bag → Prop)
    (mode : WriteMode) (model : EntityType) (bag other : Bag) : Prop where
  declared : ∀ p ∈ model.properties, other.present? p.name = bag.present? p.name
  noted : mode = .merge → ∀ p ∈ model.properties,
    (p.name ∈ defaultedNames other ↔ p.name ∈ defaultedNames bag)
  related : ∀ rel ∈ model.relationships, RelatedWritesOut registry writesOut bag other rel

/-- The second payload is the first one with scalars written out, on as many levels. -/
def WritesOut (registry : Registry) : Nat → WriteMode → EntityType → Bag → Bag → Prop
  | 0, _, _, bag, other => other = bag
  | levels + 1, mode, model, bag, other =>
    BagWritesOut registry (WritesOut registry levels .merge) mode model bag other

/-- No relationship that is held has a property of the name of its node key. -/
def EntityType.SeparatesNodeKeys (model : EntityType) : Prop :=
  ∀ rel ∈ model.relationships, rel.shape.isRelationship → rel.property? rel.nodeKey = none

instance (model : EntityType) : Decidable model.SeparatesNodeKeys :=
  inferInstanceAs (Decidable (∀ rel ∈ _, _))

/-! ## Plans that come to the same -/

/-- Two far nodes are obtained under the same variable by the same steps, and are as many nodes on
as many levels. -/
structure TargetEquiv (target other : WriteTarget) : Prop where
  var : other.var = target.var
  steps : ∀ scope, other.steps scope = target.steps scope
  nodeCount : other.nodeCount = target.nodeCount
  depth : other.depth = target.depth

/-- Two links are written by the same steps, to as many nodes on as many levels. -/
structure LinkEquiv (link other : WriteLink) : Prop where
  steps : ∀ verb var scope, other.stepsIn verb var scope = link.stepsIn verb var scope
  nodeCount : other.target.nodeCount = link.target.nodeCount
  depth : other.target.depth = link.target.depth

/-- Two plans have the same variable and the same steps, and write as many nodes on as many
levels. -/
structure PlanEquiv (plan other : WritePlan) : Prop where
  var : other.var = plan.var
  steps : ∀ scope, other.stepsIn scope = plan.stepsIn scope
  nodeCount : other.nodeCount = plan.nodeCount
  depth : other.depth = plan.depth

variable {registry : Registry} {limit : WriteLimit} {levels : Nat} {mode : WriteMode}
  {var key : String} {model target : EntityType} {rel : Relationship} {bag other : Bag}
  {value : Value}

/-- A plan comes to the same as itself. -/
theorem PlanEquiv.refl (plan : WritePlan) : PlanEquiv plan plan :=
  ⟨rfl, fun _ => rfl, rfl, rfl⟩

/-- A far node is obtained as it is. -/
theorem TargetEquiv.refl (target : WriteTarget) : TargetEquiv target target :=
  ⟨rfl, fun _ => rfl, rfl, rfl⟩

/-- Far bags whose plans come to the same are obtained in the same way. -/
theorem PlanEquiv.nested {plan plan' : WritePlan} (h : PlanEquiv plan plan') :
    TargetEquiv (.nested plan) (.nested plan') :=
  ⟨h.var, h.steps, h.nodeCount, congrArg (1 + ·) h.depth⟩

/-- Links to far nodes that are obtained in the same way come to the same. -/
theorem linkEquiv_mk {far far' : WriteTarget} (h : TargetEquiv far far') (name type : String)
    (direction : Direction) (relVar : String) (properties : Bag) :
    LinkEquiv (.mk name type direction relVar properties far)
      (.mk name type direction relVar properties far') := by
  refine ⟨fun verb var scope => ?_, h.nodeCount, h.depth⟩
  rw [WriteLink.stepsIn, WriteLink.stepsIn, h.var, h.steps]

/-- Behind links that come to the same there are as many nodes. -/
theorem linksNodeCount_equiv {links links' : List WriteLink}
    (h : List.Forall₂ LinkEquiv links links') : linksNodeCount links' = linksNodeCount links := by
  induction h with
  | nil => rfl
  | @cons link link' _ _ hlink _ ih =>
    have hcount := hlink.nodeCount
    obtain ⟨_, _, _, _, _, _⟩ := link
    obtain ⟨_, _, _, _, _, _⟩ := link'
    exact congrArg₂ (· + ·) hcount ih

/-- Behind links that come to the same there are as many levels. -/
theorem linksDepth_equiv {links links' : List WriteLink}
    (h : List.Forall₂ LinkEquiv links links') : linksDepth links' = linksDepth links := by
  induction h with
  | nil => rfl
  | @cons link link' _ _ hlink _ ih =>
    have hdepth := hlink.depth
    obtain ⟨_, _, _, _, _, _⟩ := link
    obtain ⟨_, _, _, _, _, _⟩ := link'
    exact congrArg₂ max hdepth ih

/-- An entity with links that come to the same is written by the same steps. -/
theorem planEquiv_mk {links links' : List WriteLink} (h : List.Forall₂ LinkEquiv links links')
    (mode : WriteMode) (var : String) (labels : List String) (split : Split) :
    PlanEquiv (.mk mode var labels split links) (.mk mode var labels split links') := by
  have hlinks : ∀ scope, linkSteps mode.verb var scope links' =
      linkSteps mode.verb var scope links := by
    intro scope
    rw [linkSteps_eq, linkSteps_eq]
    induction h with
    | nil => rfl
    | cons hlink _ ih => rw [List.flatMap_cons, List.flatMap_cons, hlink.steps, ih]
  refine ⟨rfl, fun scope => ?_, congrArg (1 + ·) (linksNodeCount_equiv h), linksDepth_equiv h⟩
  rw [WritePlan.stepsIn, WritePlan.stepsIn, hlinks]

/-! ## The bag that a scalar is short for -/

/-- A primary key is one of the keys by which a merge finds an entity. -/
theorem mem_identifyingKeys_of_primaryKey? (hkey : target.primaryKey? = some key) :
    key ∈ target.identifyingKeys := by
  have hfield : key ∈ target.mergeFields := List.mem_append_left _ (Option.mem_toList.mpr hkey)
  have hfields : target.mergeFields.isEmpty = false := by
    simpa using List.ne_nil_of_mem hfield
  rwa [EntityType.identifyingKeys, hfields]

/-- A bag that has nothing but a scalar has no value under another key. -/
theorem present?_singleton {name : String} (hscalar : value.isScalar) :
    Bag.present? [(key, value)] name = if key = name then some value else none := by
  rw [Bag.present?, KeyedList.get?]
  split
  · cases value <;> first | rfl | cases hscalar
  · rfl

/-- A bag that has nothing but a scalar notes no names. -/
theorem defaultedNames_singleton (hscalar : value.isScalar) :
    defaultedNames [(key, value)] = [] := by
  rw [defaultedNames, KeyedList.get?]
  split
  · next h =>
    split at h
    · cases h
      cases hscalar
    · cases h
  · rfl

/-- All of a bag that has nothing but a scalar under the primary key stands in the pattern of a
merge. -/
theorem splitProperties_key (hkey : target.primaryKey? = some key) (hscalar : value.isScalar) :
    splitProperties .merge target [(key, value)] = { inline := [(key, value)] } := by
  have hidentifying := mem_identifyingKeys_of_primaryKey? hkey
  have hnoted : ∀ name, name ∉ defaultedNames [(key, value)] := by
    simp [defaultedNames_singleton hscalar]
  -- The only property with a value is the primary key, by which the entity is found.
  have hempty : ∀ part, part ≠ .inline →
      (splitProperties .merge target [(key, value)]).part part = [] := by
    refine fun part hpart => Decidable.byContradiction fun h => hpart ?_
    obtain ⟨p, -, hthere, hwritten⟩ := part_ne_nil_iff.mp h
    rw [present?_singleton hscalar] at hthere
    split at hthere
    · next hname =>
      rw [← hwritten]
      exact mergePart_of_identifying (fun h => hnoted _ h.2) (hname ▸ hidentifying)
    · cases hthere
  have honCreate := hempty .onCreate (by decide)
  have hset := hempty .set (by decide)
  have hpartitions := @partitions_splitProperties .merge target [(key, value)]
  have hascending := hpartitions.ascending .inline
  have hheld := hpartitions.held
  generalize splitProperties .merge target [(key, value)] = split at *
  obtain ⟨inline, onCreate, set⟩ := split
  obtain rfl : onCreate = [] := honCreate
  obtain rfl : set = [] := hset
  have hinline : inline = [(key, value)] := by
    refine KeyedList.eq_of_mem_iff (List.pairwise_singleton _ _) hascending fun entry => ?_
    have hentry := hheld entry.1 entry.2
    simp only [Split.entries, List.append_nil, present?_singleton hscalar] at hentry
    change entry ∈ inline ↔ _
    rw [hentry, List.mem_singleton]
    constructor
    · rintro ⟨-, hvalue⟩
      split at hvalue
      · next hname => exact Prod.ext hname.symm (Option.some.inj hvalue).symm
      · cases hvalue
    · rintro rfl
      exact ⟨exists_property_of_mem_identifyingKeys hidentifying, if_pos rfl⟩
  rw [hinline]

/-- A bag that has nothing but a scalar under the primary key is planned under any limit, to be
merged by that. -/
theorem planNode_key (hkey : target.primaryKey? = some key) (hscalar : value.isScalar) :
    planNode registry limit levels .merge var target [(key, value)] =
      .ok (.mk .merge var target.labels { inline := [(key, value)] } []) := by
  rw [← splitProperties_key hkey hscalar]
  refine planNode_of_unrelated fun rel hrel => ?_
  obtain ⟨p, hp, rfl⟩ :=
    exists_property_of_mem_identifyingKeys (mem_identifyingKeys_of_primaryKey? hkey)
  have hne : p.name ≠ rel.name := fun hname => by
    have hnone := EntityType.relationship?_of_property hp
    rw [hname, EntityType.relationship?_of_mem hrel] at hnone
    cases hnone
  rw [present?_singleton hscalar, if_neg hne]

/-- The steps that merge a reference are those of the plan of the bag that it is short for. -/
theorem targetEquiv_reference (var : String) (labels : List String) (key : String) (value : Value) :
    TargetEquiv (.reference var labels key value)
      (.nested (.mk .merge var labels { inline := [(key, value)] } [])) :=
  ⟨rfl, fun _ => rfl, rfl, rfl⟩

/-! ## Plans of payloads that write scalars out -/

section

variable {planBag : String → EntityType → Bag → Except CompileError WritePlan}
  {writesOut : Bag → Bag → Prop}

/-- How far sides are obtained comes to the same, if plans of bags do, and if a bag with nothing but
the primary key is merged by that. -/
theorem planFar_writesOut
    (hbags : ∀ var bag other, writesOut bag other →
      SameOutcome PlanEquiv (planBag var target bag) (planBag var target other))
    (hkeys : ∀ var key value, target.primaryKey? = some key → value.isScalar →
      planBag var target [(key, value)] =
        .ok (.mk .merge var target.labels { inline := [(key, value)] } []))
    (model : EntityType) (rel : Relationship) (var : String) {before after : Value}
    (h : FarWritesOut writesOut target before after) :
    SameOutcome TargetEquiv (planFar planBag model rel target var before)
      (planFar planBag model rel target var after) := by
  cases h with
  | same => exact .refl TargetEquiv.refl
  | @scalar value key hscalar hkey =>
    have hbefore : planFar planBag model rel target var before =
        .ok (.reference var target.labels key before) := by
      cases before <;> simp_all [planFar, Value.isScalar, scalarTarget]
    rw [hbefore, planFar, hkeys var key before hkey hscalar]
    exact .ok (targetEquiv_reference var target.labels key before)
  | bag h => exact (hbags var _ _ h).map fun plan plan' hsame => hsame.nested

/-- Links for an item come to the same, if far sides are obtained so. -/
theorem planItem_writesOut {far : Value → Value → Prop} {item after : Value} {index : Nat}
    (hnode : rel.shape.isRelationship → rel.property? rel.nodeKey = none)
    (hfar : ∀ var before after, far before after → SameOutcome TargetEquiv
      (planFar planBag model rel target var before) (planFar planBag model rel target var after))
    (h : ItemWritesOut far rel item after) :
    SameOutcome LinkEquiv (planItem planBag var model rel target (item, index))
      (planItem planBag var model rel target (after, index)) := by
  cases h with
  | same => exact .refl fun link => ⟨fun _ _ _ => rfl, rfl, rfl⟩
  | far hbefore h =>
    obtain ⟨properties, hsplit⟩ := farSide?_eq_some.mp hbefore
    rw [planItem, planItem, hsplit, splitItem_putFar hnode hsplit]
    exact (hfar _ _ _ h).bind fun target target' hsame => .ok (linkEquiv_mk hsame _ _ _ _ _)

/-- A relationship has a value in both bags or in neither. -/
theorem isSome_of_relatedWritesOut {writesOut : EntityType → Bag → Bag → Prop}
    (h : RelatedWritesOut registry writesOut bag other rel) :
    (other.present? rel.name).isSome = (bag.present? rel.name).isSome := by
  unfold RelatedWritesOut at h
  split at h
  · exact h
  · exact isSome_eq_of_rel h

/-- Links under a relationship come to the same, if plans of bags do, and if a bag with nothing but
the primary key is merged by that. -/
theorem planRelated_writesOut {writesOut : EntityType → Bag → Bag → Prop} (var : String)
    (model : EntityType) (hnode : rel.shape.isRelationship → rel.property? rel.nodeKey = none)
    (hbags : ∀ target ∈ registry.models, ∀ var bag other, writesOut target bag other →
      SameOutcome PlanEquiv (planBag var target bag) (planBag var target other))
    (hkeys : ∀ target var key value, target.primaryKey? = some key → value.isScalar →
      planBag var target [(key, value)] =
        .ok (.mk .merge var target.labels { inline := [(key, value)] } []))
    (h : RelatedWritesOut registry writesOut bag other rel) :
    SameOutcome (List.Forall₂ LinkEquiv) (planRelated registry planBag var model bag rel)
      (planRelated registry planBag var model other rel) := by
  have hthere := isSome_of_relatedWritesOut h
  unfold RelatedWritesOut at h
  unfold planRelated
  generalize bag.present? rel.name = value, other.present? rel.name = value' at h hthere
  cases htarget : registry.target? rel with
  | none =>
    cases value <;> cases value' <;> simp at hthere
    · exact .ok .nil
    · exact .error _
  | some target =>
    rw [htarget] at h
    cases h with
    | none => exact .ok .nil
    | @some value value' hitems =>
      refine SameOutcome.mapM ((zipIdx_of_forall₂ hitems 0).imp ?_)
      rintro ⟨item, index⟩ ⟨item', index'⟩ ⟨rfl, hitem⟩
      have htargetBags := hbags target (mem_models_of_target? htarget)
      exact planItem_writesOut hnode (fun var before after hfar =>
        planFar_writesOut htargetBags (hkeys target) model rel var hfar) hitem

end

/-- What is planned for a payload comes to the same when scalars are written out in it, for any
number of levels and under any limit. -/
theorem planNode_writesOut {within : Nat}
    (hapart : ∀ owner ∈ registry.models, owner.SeparatesNodeKeys)
    (hmodel : model.SeparatesNodeKeys)
    (h : WritesOut registry within mode model bag other) :
    SameOutcome PlanEquiv (planNode registry limit levels mode var model bag)
      (planNode registry limit levels mode var model other) := by
  -- Bags below are planned for one level less, and written out on one level less.
  induction levels generalizing within mode var model bag other with
  | zero =>
    cases within with
    | zero =>
      rw [show other = bag from h]
      exact .refl PlanEquiv.refl
    | succ within =>
      have hthere := fun rel hrel => isSome_of_relatedWritesOut (h.related rel hrel)
      rw [planNode, planNode, find?_present_congr hthere,
        splitProperties_congr h.declared h.noted]
      exact .refl PlanEquiv.refl
  | succ levels ih =>
    cases within with
    | zero =>
      rw [show other = bag from h]
      exact .refl PlanEquiv.refl
    | succ within =>
      have hlinks : ∀ rel ∈ model.relationships, SameOutcome (List.Forall₂ LinkEquiv)
          (planRelated registry (planNode registry limit levels .merge) var model bag rel)
          (planRelated registry (planNode registry limit levels .merge) var model other rel) :=
        fun rel hrel => planRelated_writesOut var model (hmodel rel hrel)
          (fun target htarget var bag other => ih (hapart target htarget))
          (fun target var key value => planNode_key) (h.related rel hrel)
      rw [planNode, planNode, splitProperties_congr h.declared h.noted]
      refine (SameOutcome.mapM (List.forall₂_same.mpr hlinks)).bind fun links links' hsame => ?_
      exact .ok (planEquiv_mk (List.rel_flatten hsame) _ _ _ _)

/-- A scalar is short for the bag that has it under the primary key. Whatever scalars of a payload
are written out as such bags, on whatever levels, the write fails with the same error or is drafted
by the same steps, to the same draft, and is of as many nodes on as many levels; unless a type
declares a relationship under the reserved key, and a bag that is merged notes other properties
then. No relationship that is held may have a property of the name of its node key. -/
theorem ofPayload_writesOut {payload : Bag}
    (hapart : ∀ owner ∈ model :: registry.models, owner.SeparatesNodeKeys)
    (h : WritesOut registry levels mode model payload other) :
    SameOutcome (fun plan plan' : WritePlan => ∃ draft, Draft.run {} plan.steps = .ok draft ∧
        Draft.run {} plan'.steps = .ok draft ∧ plan'.nodeCount = plan.nodeCount ∧
        plan'.depth = plan.depth)
      (WritePlan.ofPayload registry limit mode var model payload)
      (WritePlan.ofPayload registry limit mode var model other) := by
  have hmodels := fun owner howner => hapart owner (List.mem_cons_of_mem model howner)
  refine (planNode_writesOut hmodels (hapart model List.mem_cons_self) h).imp ?_
  intro plan plan' _ hsame
  obtain ⟨draft, hdraft⟩ := plan.takable_stepsIn [] {}
  exact ⟨draft, hdraft, (congrArg (Draft.run {}) (hsame.steps [])).trans hdraft, hsame.nodeCount,
    hsame.depth⟩

/-- Somebody with two friends, of whom the first one, Bob, has a friend too. -/
def withFriends (ofBob ofAnn : Value) : Bag := [
  ("best friends", .list [
    .map [("node", .map [
      ("best friends", .list [.map [("node", ofBob)]]), ("nickname", .string "Bob")]),
      ("since", .int 1999)],
    .map [("node", ofAnn)]]),
  ("nickname", .string "Ann")]

/-- A friend who is written out. -/
def nicknamed (name : String) : Value := .map [("nickname", .string name)]

/-- Friends on two levels may be written out. -/
theorem friends_written_out :
    WritesOut friends 2 .create friend (withFriends (.string "Cleo") (.string "Dora"))
      (withFriends (nicknamed "Cleo") (nicknamed "Dora")) ∧
    ∃ plan plan' draft,
      WritePlan.ofPayload friends {} .create rootVar friend
        (withFriends (.string "Cleo") (.string "Dora")) = .ok plan ∧
      WritePlan.ofPayload friends {} .create rootVar friend
        (withFriends (nicknamed "Cleo") (nicknamed "Dora")) = .ok plan' ∧
      Draft.run {} plan.steps = .ok draft ∧ Draft.run {} plan'.steps = .ok draft ∧
      plan.nodeCount = 4 ∧ plan'.nodeCount = 4 ∧ plan'.depth = plan.depth := by
  have hapart : ∀ owner ∈ friend :: friends.models, owner.SeparatesNodeKeys := by decide
  -- Friends have one property and one relationship.
  have hbag {levels : Nat} {mode : WriteMode} {bag other : Bag}
      (hname : other.present? "nickname" = bag.present? "nickname")
      (hnoted : defaultedNames other = defaultedNames bag)
      (hrelated : ∀ rel ∈ friend.relationships,
        RelatedWritesOut friends (WritesOut friends levels .merge) bag other rel) :
      WritesOut friends (levels + 1) mode friend bag other := by
    refine ⟨fun p hp => ?_, fun _ => mem_defaultedNames_congr hnoted, hrelated⟩
    obtain rfl := List.mem_singleton.mp hp
    exact hname
  have hwritesOut : WritesOut friends 2 .create friend
      (withFriends (.string "Cleo") (.string "Dora"))
      (withFriends (nicknamed "Cleo") (nicknamed "Dora")) := by
    refine hbag rfl rfl fun rel hrel => ?_
    obtain rfl := List.mem_singleton.mp hrel
    refine Option.Rel.some (.cons (.far rfl (.bag (hbag rfl rfl fun rel hrel => ?_)))
      (.cons (.far rfl (.scalar rfl rfl)) .nil))
    obtain rfl := List.mem_singleton.mp hrel
    exact Option.Rel.some (.cons (.far rfl (.scalar rfl rfl)) .nil)
  have hplan : ∃ plan, WritePlan.ofPayload friends {} .create rootVar friend
      (withFriends (.string "Cleo") (.string "Dora")) = .ok plan ∧ plan.nodeCount = 4 :=
    ⟨_, rfl, rfl⟩
  obtain ⟨plan, hplan, hcount⟩ := hplan
  have hsame := @ofPayload_writesOut friends {} 2 .create rootVar friend _ _ hapart hwritesOut
  rw [hplan] at hsame
  generalize hother : WritePlan.ofPayload friends {} .create rootVar friend
    (withFriends (nicknamed "Cleo") (nicknamed "Dora")) = outcome at hsame
  cases hsame with
  | ok h =>
    obtain ⟨draft, hdraft, hdraft', hcount', hdepth⟩ := h
    exact ⟨hwritesOut, plan, _, draft, hplan, rfl, hdraft, hdraft', hcount, hcount'.trans hcount,
      hdepth⟩

/-- Tickets have a number and a state. Those that a ticket replaces stand under the reserved key. -/
def ticket : EntityType where
  name := "Ticket"
  labels := ["Ticket"]
  properties := [Property.asPrimary { name := "number", type := .string },
    { name := "state", type := .string }]
  relationships := [
    { name := defaultedKey, shape := .nodes, type := "REPLACES", direction := .outgoing,
      target := .model "Ticket" }]
  labels_ne_nil := by decide
  labels_ascending := by decide
  properties_nodup := by decide
  relationships_nodup := by decide
  keys_disjoint := by decide
  primary_le_one := by decide

/-- The registry of tickets. -/
def tickets : Registry := ⟨[ticket], by decide⟩

/-- A ticket that replaces another one. -/
def replacing (other : Value) : Bag := [
  (defaultedKey, .list [other]), ("number", .string "T2"), ("state", .string "open")]

/-- A text that is the number of a ticket and the name of a property is noted as the latter. When it
is written out, the state is no longer set on creation alone. -/
theorem ticket_note_written_out :
    ticket.SeparatesNodeKeys ∧ ticket.primaryKey? = some "number" ∧
    ∃ plan plan',
      WritePlan.ofPayload tickets {} .merge rootVar ticket (replacing (.string "state")) =
        .ok plan ∧
      WritePlan.ofPayload tickets {} .merge rootVar ticket
        (replacing (.map [("number", .string "state")])) = .ok plan' ∧
      (Draft.run {} plan.steps).map (fun draft => draft.query.text) =
        .ok ("MERGE (this:Ticket \x7b number: $this_number \x7d)\n" ++
          "ON CREATE SET this.state = $set_this_state\nWITH this\n" ++
          "MERGE (this___DEFAULTED___node_0:Ticket " ++
          "\x7b number: $this___DEFAULTED___node_0_number \x7d)\n" ++
          "MERGE (this)-[this___DEFAULTED___rel_0:REPLACES]->(this___DEFAULTED___node_0)") ∧
      (Draft.run {} plan'.steps).map (fun draft => draft.query.text) =
        .ok ("MERGE (this:Ticket \x7b number: $this_number \x7d)\n" ++
          "SET this.state = $set_this_state\nWITH this\n" ++
          "MERGE (this___DEFAULTED___node_0:Ticket " ++
          "\x7b number: $this___DEFAULTED___node_0_number \x7d)\n" ++
          "MERGE (this)-[this___DEFAULTED___rel_0:REPLACES]->(this___DEFAULTED___node_0)") :=
  ⟨by decide, rfl, _, _, rfl, rfl, by decide +kernel, by decide +kernel⟩

end GraphMapper
