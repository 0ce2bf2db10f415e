import GraphMapper.Proofs.Hydration
import GraphMapper.Proofs.Projection.Unfolding

/-!
# Which keys a projection requests

A projection names the properties that the database is asked for: those of a type where a node of
that type is projected, and those of a declaration where a relationship is. `Projection.Requests`
follows the tree down and says of each key whose it is, and `requests_succ_iff` what one level of
the compilation adds. A node of unknown type is asked for all that it has, and no key is named.

Of a node no hidden property is requested. Of a relationship all declared properties are, so that a
projection keeps everything hidden exactly if no eager relationship within its limit that is held
itself declares a hidden property (`requests_hidden_iff`). What neighbours quarrelled about is the
simplest thing that is meant to be hidden and is sent nevertheless (`quarrel_requested`); results
never show it, for it is left out again when they are loaded.
-/

namespace GraphMapper

open Cypher

/-- What a key is requested of: a node of a type, or a relationship by its declaration. -/
inductive Asked where
  | node (type : EntityType)
  | link (rel : Relationship)

/-- The properties that are declared there. -/
def Asked.properties : Asked → List Property
  | .node type => type.properties
  | .link rel => rel.properties

/-- The projection of a node of the type requests a key, of the node itself, of a relationship that
is held in one of its eager fields, or somewhere below the far node of one. -/
inductive Projection.Requests (registry : Registry) :
    Option EntityType → Projection → Asked → String → Prop
  | node {model : EntityType} {var key : String} {names : List String} {fields : List EagerField}
      (hkey : key ∈ names) :
    Requests registry (some model) (.node var (some names) fields) (.node model) key
  | link {model : EntityType} {rel : Relationship} {var relVar nodeKey key : String}
      {properties : Option (List String)} {names : List String} {fields : List EagerField}
      {field : EagerField} {far : Projection} (hrel : rel ∈ model.eager) (hfield : field ∈ fields)
      (hname : field.name = rel.name)
      (hheld : field.projection = .relationship relVar names nodeKey far) (hkey : key ∈ names) :
    Requests registry (some model) (.node var properties fields) (.link rel) key
  | farther {model : EntityType} {rel : Relationship} {var key : String}
      {properties : Option (List String)} {fields : List EagerField} {field : EagerField}
      {asked : Asked} (hrel : rel ∈ model.eager) (hfield : field ∈ fields)
      (hname : field.name = rel.name)
      (hfar : Requests registry (registry.target? rel) field.projection.inner asked key) :
    Requests registry (some model) (.node var properties fields) asked key

/-- The key is that of no hidden property of what it is requested of. -/
def Asked.Shows (asked : Asked) (key : String) : Prop :=
  ∀ p ∈ asked.properties, p.name = key → p.hidden = false

namespace Projection

variable {registry : Registry} {levels : Nat} {var key : String} {model : EntityType}
  {rel : Relationship} {projection : Projection} {walk : List Relationship} {asked : Asked}

/-- Nothing is requested of a node of unknown type. -/
theorem not_requests_none : ¬ Requests registry none projection asked key := nofun

/-- Two eager relationships of a type with the same name are the same. -/
theorem eq_of_eager_name {other : Relationship} (hrel : rel ∈ model.eager)
    (hother : other ∈ model.eager) (hname : rel.name = other.name) : rel = other := by
  have hfound := EntityType.relationship?_of_mem (List.mem_filter.mp hrel).1
  rw [hname, EntityType.relationship?_of_mem (List.mem_filter.mp hother).1] at hfound
  exact (Option.some.inj hfound).symm

/-- The field of an eager relationship is built around the projection of the far node. -/
theorem exists_node_of_eagerField {field : EagerField}
    (h : eagerField registry (ofModel registry levels) var model rel = .ok field) :
    ∃ node, ofModel registry levels (nestedVar var rel.name .node) (registry.target? rel) =
        .ok node ∧
      field.name = rel.name ∧ field.projection.inner = node ∧
      field.projection = far rel (nestedVar var rel.name .relationship) node := by
  obtain ⟨found, node, htarget, hnode, rfl⟩ := eagerField_eq_ok.mp h
  obtain ⟨-, rfl⟩ := target_eq_ok.mp htarget
  exact ⟨node, hnode, rfl, inner_far (isRelationship_of_ofModel hnode) _, rfl⟩

/-- Above the last level the far node of every eager relationship is projected. -/
theorem exists_node_of_mem_eager
    (h : ofModel registry (levels + 1) var (some model) = .ok projection)
    (hrel : rel ∈ model.eager) :
    ∃ node, ofModel registry levels (nestedVar var rel.name .node) (registry.target? rel) =
      .ok node := by
  obtain ⟨fields, hfields, -⟩ := ofModel_succ_eq_ok.mp h
  obtain ⟨field, -, hfield⟩ := exists_of_forall₂_right hfields.flip hrel
  obtain ⟨node, hnode, -⟩ := exists_node_of_eagerField hfield
  exact ⟨node, hnode⟩

/-- On the last level only the properties of the node are requested. -/
theorem requests_zero_iff (h : ofModel registry 0 var (some model) = .ok projection) :
    projection.Requests registry (some model) asked key ↔
      asked = .node model ∧ key ∈ model.visible.map Property.name := by
  cases h
  constructor
  · intro hrequests
    cases hrequests with
    | node hkey => exact ⟨rfl, hkey⟩
    | link _ hfield => cases hfield
    | farther _ hfield => cases hfield
  · rintro ⟨rfl, hkey⟩
    exact .node hkey

/-- On a level above the last one the properties of the node are requested, those of the
relationships that are held in its fields, and what the projections of the far nodes request. -/
theorem requests_succ_iff (h : ofModel registry (levels + 1) var (some model) = .ok projection) :
    projection.Requests registry (some model) asked key ↔
      asked = .node model ∧ key ∈ model.visible.map Property.name ∨
      ∃ rel ∈ model.eager,
        asked = .link rel ∧ rel.shape.isRelationship ∧ key ∈ rel.properties.map Property.name ∨
        ∃ node, ofModel registry levels (nestedVar var rel.name .node) (registry.target? rel) =
            .ok node ∧ node.Requests registry (registry.target? rel) asked key := by
  obtain ⟨fields, hfields, rfl⟩ := ofModel_succ_eq_ok.mp h
  -- A field of the name of an eager relationship was made for it.
  have hmade {rel : Relationship} {field : EagerField} (hrel : rel ∈ model.eager)
      (hfield : field ∈ fields) (hname : field.name = rel.name) :
      eagerField registry (ofModel registry levels) var model rel = .ok field := by
    obtain ⟨other, hother, hmade⟩ := exists_of_forall₂_right hfields hfield
    obtain ⟨node, -, hother', -⟩ := exists_node_of_eagerField hmade
    rwa [eq_of_eager_name hrel hother (hname.symm.trans hother')]
  constructor
  · intro hrequests
    cases hrequests with
    | node hkey => exact .inl ⟨rfl, hkey⟩
    | @link _ rel _ _ _ _ _ _ _ field _ hrel hfield hname hheld hkey =>
      obtain ⟨node, -, -, -, hfar⟩ := exists_node_of_eagerField (hmade hrel hfield hname)
      have hshape : rel.shape.isRelationship = true := by
        rw [← (fieldAlong_of_eagerField (hmade hrel hfield hname)).held, hheld]
        rfl
      rw [hheld, far_of_isRelationship hshape] at hfar
      cases hfar
      exact .inr ⟨rel, hrel, .inl ⟨rfl, hshape, hkey⟩⟩
    | @farther _ rel _ _ _ _ field _ hrel hfield hname hfar =>
      obtain ⟨node, hnode, -, hinner, -⟩ := exists_node_of_eagerField (hmade hrel hfield hname)
      exact .inr ⟨rel, hrel, .inr ⟨node, hnode, hinner ▸ hfar⟩⟩
  · rintro (⟨rfl, hkey⟩ | ⟨rel, hrel, hbelow⟩)
    · exact .node hkey
    · obtain ⟨field, hfield, hmade⟩ := exists_of_forall₂_right hfields.flip hrel
      obtain ⟨node, hnode, hname, hinner, hfar⟩ := exists_node_of_eagerField hmade
      rcases hbelow with ⟨rfl, hshape, hkey⟩ | ⟨node', hnode', hrequests⟩
      · rw [far_of_isRelationship hshape] at hfar
        exact .link hrel hfield hname hfar hkey
      · obtain rfl : node = node' := Except.ok.inj (hnode.symm.trans hnode')
        exact .farther hrel hfield hname (hinner.symm ▸ hrequests)

/-- Of nodes no hidden property is requested. -/
theorem shows_of_requests_node {type : EntityType}
    (h : ofModel registry levels var (some model) = .ok projection)
    (hrequests : projection.Requests registry (some model) (.node type) key) :
    (Asked.node type).Shows key := by
  -- The induction is on the levels: a request is one of this level or one of a level below.
  have hvisible {model : EntityType} (hkey : key ∈ model.visible.map Property.name) :
      (Asked.node model).Shows key := by
    intro p hp hname
    obtain ⟨q, hq, hqname⟩ := List.mem_map.mp hkey
    obtain ⟨hq, hshown⟩ := List.mem_filter.mp hq
    rw [EntityType.eq_of_name_eq hp hq (hname.trans hqname.symm)]
    simpa using hshown
  induction levels generalizing model var projection with
  | zero =>
    obtain ⟨hasked, hkey⟩ := (requests_zero_iff h).mp hrequests
    cases hasked
    exact hvisible hkey
  | succ levels ih =>
    rcases (requests_succ_iff h).mp hrequests with ⟨hasked, hkey⟩ | ⟨rel, -, ⟨hasked, -⟩ | hfar⟩
    · cases hasked
      exact hvisible hkey
    · cases hasked
    · obtain ⟨node, hnode, hrequests⟩ := hfar
      cases htarget : registry.target? rel with
      | none =>
        rw [htarget] at hrequests
        exact absurd hrequests not_requests_none
      | some target =>
        rw [htarget] at hnode hrequests
        exact ih hnode hrequests

/-- Of relationships all declared properties are requested, where a walk of eager relationships
within the limit ends in one that is held itself. -/
theorem requests_link_iff (h : ofModel registry levels var (some model) = .ok projection) :
    projection.Requests registry (some model) (.link rel) key ↔
      (∃ walk, Walk registry EntityType.eager model (walk ++ [rel]) ∧ walk.length < levels) ∧
        rel.shape.isRelationship ∧ key ∈ rel.properties.map Property.name := by
  -- The induction is on the levels, where the first relationship of a walk is one of this level.
  induction levels generalizing model var projection with
  | zero =>
    rw [requests_zero_iff h]
    simp
  | succ levels ih =>
    rw [requests_succ_iff h]
    constructor
    · rintro (⟨hasked, -⟩ | ⟨first, hfirst, ⟨hasked, hshape, hkey⟩ | ⟨node, hnode, hrequests⟩⟩)
      · cases hasked
      · cases hasked
        exact ⟨⟨[], .last hfirst, Nat.succ_pos levels⟩, hshape, hkey⟩
      · cases htarget : registry.target? first with
        | none =>
          rw [htarget] at hrequests
          exact absurd hrequests not_requests_none
        | some target =>
          rw [htarget] at hnode hrequests
          obtain ⟨⟨walk, hwalk, hlength⟩, hheld⟩ := (ih hnode).mp hrequests
          exact ⟨⟨first :: walk, .step hfirst htarget hwalk, Nat.succ_lt_succ hlength⟩, hheld⟩
    · rintro ⟨⟨walk, hwalk, hlength⟩, hheld⟩
      cases walk with
      | nil =>
        cases hwalk with
        | last hrel => exact .inr ⟨rel, hrel, .inl ⟨rfl, hheld⟩⟩
        | step _ _ hrest => cases hrest
      | cons first rest =>
        obtain ⟨target, hfirst, htarget, hrest⟩ := hwalk.exists_target (by simp)
        obtain ⟨node, hnode⟩ := exists_node_of_mem_eager h hfirst
        refine .inr ⟨first, hfirst, .inr ⟨node, hnode, ?_⟩⟩
        rw [htarget] at hnode ⊢
        exact (ih hnode).mpr ⟨⟨rest, hrest, Nat.lt_of_succ_lt_succ hlength⟩, hheld⟩

end Projection

/-- **What is requested though it is hidden.** No projection requests a hidden property of a node,
of whatever type and on whatever level. It requests no hidden property at all exactly if no walk of
eager relationships within its limit ends in one that is held itself and declares a hidden
property. -/
theorem requests_hidden_iff {registry : Registry} {limit depth : Nat} {var : String}
    {model : EntityType} {projection : Projection}
    (h : Projection.ofModel registry (Projection.levels limit depth) var (some model) =
      .ok projection) :
    (∀ type key, projection.Requests registry (some model) (.node type) key →
      (Asked.node type).Shows key) ∧
    ((∀ asked key, projection.Requests registry (some model) asked key → asked.Shows key) ↔
      ∀ walk rel, Walk registry EntityType.eager model (walk ++ [rel]) →
        walk.length < Projection.levels limit depth → rel.shape.isRelationship →
        ∀ p ∈ rel.properties, p.hidden = false) := by
  refine ⟨fun type key => Projection.shows_of_requests_node h, fun hshows => ?_, fun hnone => ?_⟩
  · intro walk rel hwalk hlength hshape p hp
    have hrequests := (Projection.requests_link_iff h).mpr
      ⟨⟨walk, hwalk, hlength⟩, hshape, List.mem_map_of_mem hp⟩
    exact hshows (.link rel) p.name hrequests p hp rfl
  · intro asked key hrequests
    cases asked with
    | node type => exact Projection.shows_of_requests_node h hrequests
    | link rel =>
      obtain ⟨⟨walk, hwalk, hlength⟩, hshape, -⟩ := (Projection.requests_link_iff h).mp hrequests
      exact fun p hp _ => hnone walk rel hwalk hlength hshape p hp

/-- A villager is projected without the secret, with friends whose friendships hide nothing. -/
theorem villager_requests_shown :
    Projection.ofModel village (Projection.levels 1 1) "this" (some villager) =
        .ok villagerProjection ∧
      ∀ asked key, villagerProjection.Requests village (some villager) asked key →
        asked.Shows key := by
  have hprojection : Projection.ofModel village (Projection.levels 1 1) "this" (some villager) =
      .ok villagerProjection := rfl
  refine ⟨hprojection, (requests_hidden_iff hprojection).2.mpr ?_⟩
  intro walk rel hwalk hlength hshape
  obtain ⟨owner, howner, hrel⟩ := hwalk.exists_owner
  obtain rfl : owner = villager := by simpa [village] using howner
  have hall : ∀ rel ∈ villager.eager, ∀ p ∈ rel.properties, p.hidden = false := by decide
  exact hall rel hrel

/-- Neighbours remember what they quarrelled about, which no result shows. -/
def quarrel : Relationship where
  name := "neighbours"
  shape := .relationships
  type := "LIVES_NEXT_TO"
  direction := .outgoing
  target := .model "Neighbour"
  eager := true
  properties := [{ name := "since", type := .integer },
    { name := "cause", type := .string, hidden := true }]

/-- Neighbours live next to each other. -/
def neighbour : EntityType where
  name := "Neighbour"
  labels := ["Neighbour"]
  properties := [Property.asPrimary { name := "house", type := .string }]
  relationships := [quarrel]
  labels_ne_nil := by decide
  labels_ascending := by decide
  properties_nodup := by decide
  relationships_nodup := by decide
  keys_disjoint := by decide
  primary_le_one := by decide

/-- The registry of neighbours. -/
def street : Registry := ⟨[neighbour], by decide⟩

/-- A neighbour is projected with those who live next door, and these without their own. -/
def neighbourProjection : Projection :=
  .node "this" (some ["house"]) [
    .mk "neighbours" (Projection.path "this" "this_neighbours_rel" "this_neighbours_node" quarrel
        ["Neighbour"]) false
      (.relationship "this_neighbours_rel" ["since", "cause"] "node"
        (.node "this_neighbours_node" (some ["house"]) []))]

/-- The projection of a neighbour requests the hidden cause of a quarrel, and names it in the text
that is sent. -/
theorem quarrel_requested :
    Projection.ofModel street (Projection.levels 1 1) "this" (some neighbour) =
        .ok neighbourProjection ∧
      neighbourProjection.Requests street (some neighbour) (.link quarrel) "cause" ∧
      ¬ (Asked.link quarrel).Shows "cause" ∧
      neighbourProjection.text =
        "this \x7b .house, __EAGER_ID__: id(this), __EAGER_LABELS__: labels(this), neighbours: " ++
        "[ (this)-[this_neighbours_rel:LIVES_NEXT_TO]->(this_neighbours_node:Neighbour) | " ++
        "this_neighbours_rel \x7b .since, .cause, __EAGER_ID__: id(this_neighbours_rel), " ++
        "__EAGER_TYPE__: type(this_neighbours_rel), node: this_neighbours_node \x7b .house, " ++
        "__EAGER_ID__: id(this_neighbours_node), " ++
        "__EAGER_LABELS__: labels(this_neighbours_node) \x7d \x7d ] \x7d" := by
  have heager : quarrel ∈ neighbour.eager := List.mem_singleton.mpr rfl
  have hrequests : neighbourProjection.Requests street (some neighbour) (.link quarrel) "cause" :=
    .link heager List.mem_cons_self rfl rfl (by decide)
  refine ⟨rfl, hrequests, fun hshows => ?_, by decide +kernel⟩
  have hcause := hshows _ (List.mem_cons_of_mem _ List.mem_cons_self) rfl
  cases hcause

end GraphMapper
