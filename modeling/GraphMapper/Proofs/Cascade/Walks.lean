import GraphMapper.CascadePlan
import GraphMapper.Proofs.Attempt
import GraphMapper.Proofs.Schema.Walks

/-!
# Which entities a delete reaches

A delete walks from type to type: along a relationship of the entity's own type that is declared
with cascade `delete`, then along one of the type at its far end, and so on. Types may refer to each
other in circles, so that only the limit of depth ends a walk (`DeleteWalk`).

The plan of a delete is a tree, and its paths from the root are exactly the walks within the limit,
each once and in depth-first order (`paths_of_ofModel`, `mem_cascadeWalks`,
`cascadeWalks_pairwise`). There is no plan exactly where such a walk ends in a type that is not
registered (`exists_walk_of_ofModel`, `not_misses_of_ofModel`).
-/

namespace GraphMapper

open Cypher

/-- The relationships of a type along which a delete is carried on. -/
def EntityType.cascading (model : EntityType) : List Relationship :=
  model.relationships.filter (·.cascade = .delete)

/-- A row of relationships along which a delete is carried on: the first is one of the type, and
each of the others one of the registered type at the far end of the one before it. -/
inductive DeleteWalk (registry : Registry) : EntityType → List Relationship → Prop
  | last {model : EntityType} {rel : Relationship} (declared : rel ∈ model.cascading) :
    DeleteWalk registry model [rel]
  | step {model target : EntityType} {rel : Relationship} {walk : List Relationship}
    (declared : rel ∈ model.cascading) (registered : registry.target? rel = some target)
    (rest : DeleteWalk registry target walk) : DeleteWalk registry model (rel :: walk)

/-- The walks of at most so many relationships. -/
def cascadeWalks (registry : Registry) : Nat → EntityType → List (List Relationship)
  | 0, _ => []
  | levels + 1, model =>
    model.cascading.flatMap (walksAlong registry (cascadeWalks registry levels))

/-- What one clause of the query matches: an edge from an entity that is known already, and the
entity at its far end. -/
structure CascadeClause where
  source : String
  var : String
  type : String
  direction : Direction
  node : String
  labels : List String
  deriving DecidableEq

mutual

/-- The paths from an entity to those below it, each before those that go on from it. -/
def CascadePlan.paths : CascadePlan → List (List CascadeClause)
  | .mk var _ edges => edgesPaths var edges

/-- The paths along edges of the entity with the given variable. -/
def edgesPaths (source : String) : List CascadeEdge → List (List CascadeClause)
  | [] => []
  | .mk var type direction node :: rest =>
    let clause : CascadeClause := ⟨source, var, type, direction, node.var, node.labels⟩
    [clause] :: node.paths.map (clause :: ·) ++ edgesPaths source rest

end

/-- What is matched along a relationship of the entity with the given variable. -/
def clauseAlong (registry : Registry) (source : String) (rel : Relationship) : CascadeClause where
  source := source
  var := nestedVar source rel.name .relationship
  type := rel.type
  direction := rel.direction
  node := nestedVar source rel.name .node
  labels := ((registry.target? rel).map EntityType.labels).getD []

/-- What is matched along a walk from the entity with the given variable. -/
def clausesAlong (registry : Registry) : String → List Relationship → List CascadeClause
  | _, [] => []
  | source, rel :: walk =>
    clauseAlong registry source rel :: clausesAlong registry (nestedVar source rel.name .node) walk

variable {registry : Registry} {levels : Nat} {var : String} {model target : EntityType}
  {rel : Relationship} {walk walk' : List Relationship} {plan : CascadePlan} {e : CompileError}

/-- A delete is carried on along walks over the cascading relationships. -/
theorem deleteWalk_iff :
    DeleteWalk registry model walk ↔ Walk registry EntityType.cascading model walk := by
  constructor
  · intro h
    induction h with
    | last hrel => exact .last hrel
    | step hrel htarget _ ih => exact .step hrel htarget ih
  · intro h
    induction h with
    | last hrel => exact .last hrel
    | step hrel htarget _ ih => exact .step hrel htarget ih

/-- The walks of a delete are those along the cascading relationships. -/
theorem cascadeWalks_eq :
    cascadeWalks registry levels model =
      walksWithin registry EntityType.cascading levels model := by
  induction levels generalizing model with
  | zero => rfl
  | succ levels ih => rw [cascadeWalks, walksWithin, funext fun model => @ih model]

/-- Cascading relationships are chosen in the order of their declaration. -/
theorem cascading_sublist (model : EntityType) : model.cascading.Sublist model.relationships :=
  List.filter_sublist

/-- The walks within a limit are listed. -/
theorem mem_cascadeWalks :
    walk ∈ cascadeWalks registry levels model ↔
      DeleteWalk registry model walk ∧ walk.length ≤ levels := by
  rw [cascadeWalks_eq, mem_walksWithin, deleteWalk_iff]

/-- No walk is empty. -/
theorem nil_not_mem_cascadeWalks : [] ∉ cascadeWalks registry levels model :=
  cascadeWalks_eq ▸ nil_not_mem_walksWithin

/-- Walks are listed in depth-first order. -/
theorem cascadeWalks_pairwise :
    (cascadeWalks registry levels model).Pairwise (Precedes registry model) :=
  cascadeWalks_eq ▸ walksWithin_pairwise cascading_sublist

/-- No two walks that are listed have the same names. -/
theorem cascadeWalks_names_nodup :
    ((cascadeWalks registry levels model).map (List.map Relationship.name)).Nodup :=
  cascadeWalks_eq ▸ walksWithin_names_nodup cascading_sublist

/-- The edge that is planned along a relationship: its far end is known, and planned itself. -/
def PlannedEdge (registry : Registry) (levels : Nat) (var : String) (rel : Relationship)
    (edge : CascadeEdge) : Prop :=
  ∃ node, ¬registry.Misses rel ∧
    CascadePlan.ofModel registry levels (nestedVar var rel.name .node) (registry.target? rel) =
      .ok node ∧
    edge = .mk (nestedVar var rel.name .relationship) rel.type rel.direction node

/-- The attempt to plan an edge. -/
def planEdge (registry : Registry) (levels : Nat) (var : String) (model : EntityType)
    (rel : Relationship) : Except CompileError CascadeEdge :=
  match registry.target rel with
  | .error _ => .error (.unresolvedTarget rel.name model.name)
  | .ok target =>
    (CascadePlan.ofModel registry levels (nestedVar var rel.name .node) target).map
      (.mk (nestedVar var rel.name .relationship) rel.type rel.direction)

/-- Above the last level an edge is planned along each relationship. -/
theorem ofModel_succ :
    CascadePlan.ofModel registry (levels + 1) var (some model) =
      (model.cascading.mapM (planEdge registry levels var model)).map
        (.mk var model.labels) := by
  rw [CascadePlan.ofModel]
  have hmap : ∀ plan, plan = planEdge registry levels var model →
      (do let edges ← model.cascading.mapM plan; return CascadePlan.mk var model.labels edges) =
        (model.cascading.mapM (planEdge registry levels var model)).map
          (.mk var model.labels) := by
    rintro _ rfl
    rfl
  refine hmap _ (funext fun rel => ?_)
  unfold planEdge
  cases registry.target rel <;> rfl

/-- An edge is planned when its far end is known, and planned itself. -/
theorem planEdge_eq_ok {edge : CascadeEdge} :
    planEdge registry levels var model rel = .ok edge ↔
      PlannedEdge registry levels var rel edge := by
  unfold planEdge PlannedEdge
  cases htarget : registry.target rel with
  | error e => simp [misses_of_target_eq_error htarget]
  | ok found =>
    obtain ⟨hknown, rfl⟩ := target_eq_ok.mp htarget
    simp [map_eq_ok, hknown, eq_comm (a := edge)]

/-- An edge is refused where its far end is not registered, or as the plan of that is. -/
theorem planEdge_eq_error (h : planEdge registry levels var model rel = .error e) :
    (registry.Misses rel ∧ e = .unresolvedTarget rel.name model.name) ∨
      CascadePlan.ofModel registry levels (nestedVar var rel.name .node) (registry.target? rel) =
        .error e := by
  unfold planEdge at h
  cases htarget : registry.target rel with
  | error e' =>
    rw [htarget] at h
    cases h
    exact .inl ⟨misses_of_target_eq_error htarget, rfl⟩
  | ok found =>
    obtain ⟨-, rfl⟩ := target_eq_ok.mp htarget
    rw [htarget] at h
    exact .inr (map_eq_error.mp h)

/-- A node of unknown type is planned by itself. -/
theorem ofModel_none : CascadePlan.ofModel registry levels var none = .ok (.mk var [] []) := by
  cases levels <;> rfl

/-- Above the last level a plan has the edges that are planned along the relationships. -/
theorem ofModel_succ_eq_ok :
    CascadePlan.ofModel registry (levels + 1) var (some model) = .ok plan ↔
      ∃ edges, List.Forall₂ (PlannedEdge registry levels var) model.cascading edges ∧
        plan = .mk var model.labels edges := by
  rw [ofModel_succ, map_eq_ok]
  simp only [mapM_eq_ok, planEdge_eq_ok, eq_comm (a := plan)]

/-- Where there is no plan, some walk within the limit ends in a type that is not registered. The
refusal names the last relationship of that walk, and the type that declares it. -/
theorem exists_walk_of_ofModel
    (h : CascadePlan.ofModel registry levels var (some model) = .error e) :
    ∃ (walk : List Relationship) (rel : Relationship) (owner : EntityType),
      DeleteWalk registry model (walk ++ [rel]) ∧ walk.length < levels ∧ registry.Misses rel ∧
      rel ∈ owner.cascading ∧ e = .unresolvedTarget rel.name owner.name := by
  simp only [deleteWalk_iff]
  refine @exists_walk_of_fails registry EntityType.cascading levels model
    (fun levels model => ∃ var, CascadePlan.ofModel registry levels var (some model) = .error e)
    (fun owner rel => e = .unresolvedTarget rel.name owner.name) ?_ ⟨var, h⟩
  rintro (_ | fewer) model ⟨var, hfails⟩
  · cases hfails
  · rw [ofModel_succ] at hfails
    obtain ⟨rel, hrel, hfails⟩ := exists_of_mapM_eq_error (map_eq_error.mp hfails)
    refine ⟨fewer, rel, rfl, hrel, (planEdge_eq_error hfails).imp_right fun hfails => ?_⟩
    cases htarget : registry.target? rel with
    | none =>
      rw [htarget, ofModel_none] at hfails
      cases hfails
    | some target => exact ⟨target, rfl, _, htarget ▸ hfails⟩

/-- Where there is a plan, no walk within the limit ends in a type that is not registered. -/
theorem not_misses_of_ofModel (h : CascadePlan.ofModel registry levels var (some model) = .ok plan)
    (hwalk : DeleteWalk registry model (walk ++ [rel])) (hlength : walk.length < levels) :
    ¬registry.Misses rel := by
  refine @Walk.not_misses registry EntityType.cascading levels model rel walk
    (fun levels model => ∃ var plan,
      CascadePlan.ofModel registry levels var (some model) = .ok plan)
    ?_ ⟨var, plan, h⟩ (deleteWalk_iff.mp hwalk) hlength
  rintro fewer model rel ⟨var, plan, hplan⟩ hrel
  obtain ⟨edges, hedges, -⟩ := ofModel_succ_eq_ok.mp hplan
  obtain ⟨edge, -, node, hknown, hnode, -⟩ := exists_of_forall₂_right hedges.flip hrel
  exact ⟨hknown, fun target htarget => ⟨_, node, htarget ▸ hnode⟩⟩

/-- A plan begins with the entity that it is asked for. -/
theorem var_of_ofModel {found : Option EntityType}
    (h : CascadePlan.ofModel registry levels var found = .ok plan) :
    plan.var = var ∧ plan.labels = (found.map EntityType.labels).getD [] := by
  cases found with
  | none =>
    rw [ofModel_none] at h
    cases h
    exact ⟨rfl, rfl⟩
  | some model =>
    cases levels with
    | zero =>
      cases h
      exact ⟨rfl, rfl⟩
    | succ levels =>
      obtain ⟨edges, -, rfl⟩ := ofModel_succ_eq_ok.mp h
      exact ⟨rfl, rfl⟩

/-- Walks from the far end of a relationship are matched behind the edge along it. -/
theorem map_clausesAlong_walksAlong (below : EntityType → List (List Relationship)) :
    (walksAlong registry below rel).map (clausesAlong registry var) =
      [clauseAlong registry var rel] ::
        (((registry.target? rel).toList.flatMap below).map
          (clausesAlong registry (nestedVar var rel.name .node))).map
            (clauseAlong registry var rel :: ·) := by
  rw [walksAlong, List.map_cons, List.map_map, List.map_map]
  rfl

/-- The paths of plans of so many levels are the walks within the limit, in their order. -/
def PathsAreWalks (registry : Registry) (levels : Nat) : Prop :=
  ∀ {var : String} {model : EntityType} {plan : CascadePlan},
    CascadePlan.ofModel registry levels var (some model) = .ok plan →
    plan.paths = (cascadeWalks registry levels model).map (clausesAlong registry var)

/-- The paths along planned edges are the walks that begin with their relationships. -/
theorem edgesPaths_of_planned (ih : PathsAreWalks registry levels) {rels : List Relationship}
    {edges : List CascadeEdge} (h : List.Forall₂ (PlannedEdge registry levels var) rels edges) :
    edgesPaths var edges =
      (rels.flatMap (walksAlong registry (cascadeWalks registry levels))).map
        (clausesAlong registry var) := by
  induction h with
  | nil => rfl
  | @cons rel edge rels edges hedge _ ihedges =>
    obtain ⟨node, -, hnode, rfl⟩ := hedge
    obtain ⟨hvar, hlabels⟩ := var_of_ofModel hnode
    have hbelow : node.paths =
        ((registry.target? rel).toList.flatMap (cascadeWalks registry levels)).map
          (clausesAlong registry (nestedVar var rel.name .node)) := by
      cases htarget : registry.target? rel with
      | none =>
        rw [htarget, ofModel_none] at hnode
        cases hnode
        rfl
      | some target =>
        rw [htarget] at hnode
        rw [ih hnode, Option.toList_some, List.flatMap_singleton]
    rw [edgesPaths, List.flatMap_cons, List.map_append, map_clausesAlong_walksAlong, ihedges,
      hbelow, hvar, hlabels]
    rfl

/-- The paths of a plan are the walks within the limit, in their order. -/
theorem paths_of_ofModel : PathsAreWalks registry levels := by
  induction levels with
  | zero =>
    intro var model plan h
    cases h
    rfl
  | succ levels ih =>
    intro var model plan h
    obtain ⟨edges, hedges, rfl⟩ := ofModel_succ_eq_ok.mp h
    rw [CascadePlan.paths, cascadeWalks, edgesPaths_of_planned ih hedges]

end GraphMapper
