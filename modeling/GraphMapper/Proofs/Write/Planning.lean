import GraphMapper.Proofs.Attempt
import GraphMapper.Write.Plan

/-!
# What a plan is made of

A plan follows the payload: under each relationship that has a value stands a link for every item,
and the link says how the far node of the item is obtained. `planNode_zero_eq_ok` and
`planNode_succ_eq_ok` say exactly when planning succeeds and what comes of it, so that no other
proof has to open the planning itself.
-/

namespace GraphMapper

open Cypher

namespace WritePlan

/-- How the entity is written. -/
def mode : WritePlan → WriteMode
  | .mk mode _ _ _ _ => mode

/-- The three parts of the entity's bag. -/
def split : WritePlan → Split
  | .mk _ _ _ split _ => split

/-- The labels that the entity is written with. -/
def labels : WritePlan → List String
  | .mk _ _ labels _ _ => labels

/-- The relationships that are written with the entity. -/
def links : WritePlan → List WriteLink
  | .mk _ _ _ _ links => links

end WritePlan

namespace WriteLink

/-- The declared name of the relationship. -/
def name : WriteLink → String
  | .mk name _ _ _ _ _ => name

/-- The variable of the relationship. -/
def var : WriteLink → String
  | .mk _ _ _ var _ _ => var

/-- The properties that are set on the relationship. -/
def properties : WriteLink → Bag
  | .mk _ _ _ _ properties _ => properties

/-- How the far node is obtained. -/
def target : WriteLink → WriteTarget
  | .mk _ _ _ _ _ target => target

end WriteLink

section

variable (registry : Registry) (limit : WriteLimit) (levels : Nat)

/-- How the far node of an item is obtained under a variable: a node by its identity, a bag by its
own plan, a scalar by the primary key of the target. -/
inductive PlannedFar (target : EntityType) (var : String) : Value → WriteTarget → Prop
  | existing (identity : Identity) (labels : List String) (properties : Bag) :
    PlannedFar target var (.node identity labels properties) (.existing var identity)
  | nested (entries : Bag) (plan : WritePlan)
      (planned : planNode registry limit levels .merge var target entries = .ok plan) :
    PlannedFar target var (.map entries) (.nested plan)
  | reference (value : Value) (key : String) (scalar : value.isScalar = true)
      (primary : target.primaryKey? = some key) :
    PlannedFar target var value (.reference var target.labels key value)

/-- The link that is planned for an item, which has an index. -/
def PlannedLink (var : String) (model : EntityType) (rel : Relationship) (target : EntityType)
    (item : Value × Nat) (link : WriteLink) : Prop :=
  ∃ node properties far, splitItem model rel item.1 = .ok (node, properties) ∧
    PlannedFar registry limit levels target (farVar var rel item.2) node far ∧
    link = .mk rel.name rel.type rel.direction.forWriting (linkVar var rel item.2) properties far

/-- The links that are planned for what a bag holds under a relationship. -/
def PlannedLinks (var : String) (model : EntityType) (bag : Bag) (rel : Relationship)
    (links : List WriteLink) : Prop :=
  match bag.present? rel.name with
  | none => links = []
  | some value => ∃ target, registry.target? rel = some target ∧
      List.Forall₂ (PlannedLink registry limit levels var model rel target)
        (relatedItems rel.shape value).zipIdx links

end

variable {registry : Registry} {limit : WriteLimit} {levels : Nat} {mode : WriteMode}
  {var : String} {model target : EntityType} {rel : Relationship} {bag : Bag} {plan : WritePlan}

/-- A far node is planned when it is a node, a bag that is planned itself, or a scalar that the
target has a primary key for. -/
theorem planFar_eq_ok {node : Value} {far : WriteTarget} :
    planFar (planNode registry limit levels .merge) model rel target var node = .ok far ↔
      PlannedFar registry limit levels target var node far := by
  constructor
  · intro h
    unfold planFar at h
    split at h
    · cases h
      exact .existing _ _ _
    · next entries =>
      cases hplan : planNode registry limit levels .merge var target entries with
      | error e => simp [hplan, Except.map] at h
      | ok plan =>
        rw [hplan] at h
        cases h
        exact .nested entries plan hplan
    · split at h
      · next hscalar =>
        unfold scalarTarget at h
        split at h
        · next key hkey =>
          cases h
          exact .reference _ key hscalar hkey
        · cases h
      · cases h
  · rintro (⟨identity, labels, properties⟩ | ⟨entries, plan, hplan⟩ | ⟨_, key, hscalar, hkey⟩)
    · rfl
    · simp [planFar, hplan, Except.map]
    · cases node <;> simp_all [planFar, Value.isScalar, scalarTarget]

/-- An item is planned when its far node is there and is planned. -/
theorem planItem_eq_ok {item : Value × Nat} {link : WriteLink} :
    planItem (planNode registry limit levels .merge) var model rel target item = .ok link ↔
      PlannedLink registry limit levels var model rel target item link := by
  unfold planItem PlannedLink
  simp only [bind_eq_ok, planFar_eq_ok]
  constructor
  · rintro ⟨⟨node, properties⟩, hsplit, far, hfar, h⟩
    cases h
    exact ⟨node, properties, far, hsplit, hfar, rfl⟩
  · rintro ⟨node, properties, far, hsplit, hfar, rfl⟩
    exact ⟨(node, properties), hsplit, far, hfar, rfl⟩

/-- What stands under a relationship is planned when its target is registered and every item is
planned. -/
theorem planRelated_eq_ok {links : List WriteLink} :
    planRelated registry (planNode registry limit levels .merge) var model bag rel = .ok links ↔
      PlannedLinks registry limit levels var model bag rel links := by
  unfold planRelated PlannedLinks
  cases bag.present? rel.name with
  | none => simp [eq_comm]
  | some value =>
    cases registry.target? rel with
    | none => simp
    | some target => simp [mapM_eq_ok, planItem_eq_ok]

/-- On the last level planning succeeds unless a relationship that has a value is refused. -/
theorem planNode_zero_eq_ok :
    planNode registry limit 0 mode var model bag = .ok plan ↔
      (limit.overflow = .error → ∀ rel ∈ model.relationships, bag.present? rel.name = none) ∧
        plan = .mk mode var model.labels (splitProperties mode model bag) [] := by
  unfold planNode
  cases hoverflow : limit.overflow with
  | truncate => simp [eq_comm]
  | error =>
    cases hfind : model.relationships.find? fun rel => (bag.present? rel.name).isSome with
    | none =>
      have hnone : ∀ rel ∈ model.relationships, bag.present? rel.name = none := by
        simpa [List.find?_eq_none] using hfind
      simp only [Except.ok.injEq, eq_comm (a := plan)]
      exact ⟨fun h => ⟨fun _ => hnone, h⟩, fun h => h.2⟩
    | some rel =>
      have hmem := List.mem_of_find?_eq_some hfind
      have hsome := List.find?_some hfind
      simp only [reduceCtorEq, false_iff, not_and]
      intro hall
      rw [hall trivial rel hmem] at hsome
      simp at hsome

/-- Above the last level planning succeeds when the links of every relationship are planned. -/
theorem planNode_succ_eq_ok :
    planNode registry limit (levels + 1) mode var model bag = .ok plan ↔
      ∃ links, List.Forall₂ (PlannedLinks registry limit levels var model bag)
        model.relationships links ∧
        plan = .mk mode var model.labels (splitProperties mode model bag) links.flatten := by
  unfold planNode
  simp only [bind_eq_ok, mapM_eq_ok, planRelated_eq_ok]
  constructor
  · rintro ⟨links, hlinks, h⟩
    cases h
    exact ⟨links, hlinks, rfl⟩
  · rintro ⟨links, hlinks, rfl⟩
    exact ⟨links, hlinks, rfl⟩

/-- A bag without related entities is planned as an entity without links. -/
theorem planNode_of_unrelated
    (hnone : ∀ rel ∈ model.relationships, bag.present? rel.name = none) :
    planNode registry limit levels mode var model bag =
      .ok (.mk mode var model.labels (splitProperties mode model bag) []) := by
  cases levels with
  | zero => exact planNode_zero_eq_ok.mpr ⟨fun _ => hnone, rfl⟩
  | succ levels =>
    -- Nothing is planned for each relationship by itself.
    have hlinks : List.Forall₂ (PlannedLinks registry limit levels var model bag)
        model.relationships (model.relationships.map fun _ => []) := by
      refine List.forall₂_map_right_iff.mpr (List.forall₂_same.mpr fun rel hrel => ?_)
      rw [PlannedLinks, hnone rel hrel]
    have hflat : (model.relationships.map fun _ => ([] : List WriteLink)).flatten = [] :=
      List.flatten_eq_nil_iff.mpr (by simp)
    exact planNode_succ_eq_ok.mpr ⟨_, hlinks, by rw [hflat]⟩

/-- The plan of a bag has the variable that it is planned with. -/
theorem planNode_var (h : planNode registry limit levels mode var model bag = .ok plan) :
    plan.var = var := by
  cases levels with
  | zero => obtain ⟨-, rfl⟩ := planNode_zero_eq_ok.mp h; rfl
  | succ levels => obtain ⟨links, -, rfl⟩ := planNode_succ_eq_ok.mp h; rfl

/-- The plan of a bag writes the split of the bag, in the mode and with the labels that it is
planned with. -/
theorem planNode_spec (h : planNode registry limit levels mode var model bag = .ok plan) :
    plan.mode = mode ∧ plan.labels = model.labels ∧
      plan.split = splitProperties mode model bag := by
  cases levels with
  | zero => obtain ⟨-, rfl⟩ := planNode_zero_eq_ok.mp h; exact ⟨rfl, rfl, rfl⟩
  | succ levels => obtain ⟨links, -, rfl⟩ := planNode_succ_eq_ok.mp h; exact ⟨rfl, rfl, rfl⟩

/-- Every link of a plan is planned for some item of some relationship. -/
theorem exists_plannedLink_of_mem {rels : List Relationship} {links : List (List WriteLink)}
    (h : List.Forall₂ (PlannedLinks registry limit levels var model bag) rels links)
    {link : WriteLink} (hmem : link ∈ links.flatten) :
    ∃ rel target item, PlannedLink registry limit levels var model rel target item link := by
  obtain ⟨planned, hplanned, hlink⟩ := List.mem_flatten.mp hmem
  obtain ⟨rel, -, hrel⟩ := exists_of_forall₂_right h hplanned
  unfold PlannedLinks at hrel
  split at hrel
  · simp [hrel] at hlink
  · obtain ⟨target, -, hitems⟩ := hrel
    obtain ⟨item, -, hitem⟩ := exists_of_forall₂_right hitems hlink
    exact ⟨rel, target, item, hitem⟩

end GraphMapper
