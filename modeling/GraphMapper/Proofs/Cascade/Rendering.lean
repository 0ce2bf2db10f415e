import GraphMapper.Proofs.Cascade.Walks
import GraphMapper.Proofs.Cypher.Drafting

/-!
# The query of a delete

The query finds the root by its identity, matches every edge of the plan by a clause of its own, and
deletes at its end. The clauses stand in the order of the paths that end in their edges
(`map_getLast?_paths`), so that each begins at the root or at an entity that an earlier clause has
matched (`sourcesKnown_clauses`). All deletes stand in the last statement, the root last
(`exists_draft_of_steps`).

With `paths_of_ofModel` this says what a delete covers: exactly the entities that are reached along
the walks within the limit (`cascade_covers`).
-/

namespace GraphMapper

open Cypher

mutual

/-- The edges below an entity, each before those below its far end. -/
def CascadePlan.clauses : CascadePlan → List CascadeClause
  | .mk var _ edges => edgesClauses var edges

/-- The edges of the entity with the given variable, and all edges below. -/
def edgesClauses (source : String) : List CascadeEdge → List CascadeClause
  | [] => []
  | .mk var type direction node :: rest =>
    ⟨source, var, type, direction, node.var, node.labels⟩ :: node.clauses ++
      edgesClauses source rest

end

/-- The clauses begin at entities that are known, the far ends of the clauses before among them. -/
def SourcesKnown : List String → List CascadeClause → Prop
  | _, [] => True
  | known, clause :: rest => clause.source ∈ known ∧ SourcesKnown (known ++ [clause.node]) rest

namespace CascadeClause

/-- The steps that match an edge. -/
def steps (clause : CascadeClause) : List Step :=
  [.start .findOptional clause.source [] [],
    .relationship (some clause.var) [clause.type] clause.direction none,
    .to clause.node clause.labels []]

end CascadeClause

/-- The node pattern with the given variable, which an empty text does not name. -/
def entityPattern (var : String) (labels : List String) : NodePattern :=
  ⟨if var = "" then none else some var, labels, []⟩

/-- The statement that matches an edge. -/
def CascadeClause.statement (clause : CascadeClause) : Statement :=
  pathStatement .findOptional [.node (entityPattern clause.source []),
    .relationship ⟨some clause.var, [clause.type], clause.direction, none⟩,
    .node (entityPattern clause.node clause.labels)]

/-- The statement that finds the root by its identity. -/
def CascadePlan.rootStatement (plan : CascadePlan) (param : String) : Statement :=
  Draft.addPredicate (.identity plan.var param) false
    (pathStatement .find [.node (entityPattern plan.var plan.labels)])

/-- Paths that go on from an edge end as they did. -/
theorem map_getLast?_cons {paths : List (List CascadeClause)} {clauses : List CascadeClause}
    (h : paths.map List.getLast? = clauses.map some) (clause : CascadeClause) :
    (paths.map (clause :: ·)).map List.getLast? = clauses.map some := by
  rw [← h, List.map_map]
  refine List.map_congr_left fun path hpath => ?_
  have hlast : path.getLast? ∈ clauses.map some := h ▸ List.mem_map_of_mem hpath
  obtain ⟨last, -, hlast⟩ := List.mem_map.mp hlast
  rw [Function.comp_apply, List.getLast?_cons, ← hlast]
  rfl

mutual

/-- Every path of a plan ends in an edge of its own. -/
theorem CascadePlan.map_getLast?_paths : (plan : CascadePlan) →
    plan.paths.map List.getLast? = plan.clauses.map some
  | .mk var _ edges => map_getLast?_edgesPaths var edges

/-- Every path along edges ends in an edge of its own. -/
theorem map_getLast?_edgesPaths (source : String) : (edges : List CascadeEdge) →
    (edgesPaths source edges).map List.getLast? = (edgesClauses source edges).map some
  | [] => rfl
  | .mk var type direction node :: rest => by
    have hbelow := map_getLast?_cons node.map_getLast?_paths
      ⟨source, var, type, direction, node.var, node.labels⟩
    have hrest := map_getLast?_edgesPaths source rest
    rw [edgesPaths, edgesClauses, List.map_append, List.map_append, hrest, List.map_cons,
      List.map_cons, hbelow]
    rfl

end

mutual

/-- The steps of a plan match its edges one after the other. -/
theorem CascadePlan.matchSteps_eq : (plan : CascadePlan) →
    plan.matchSteps = plan.clauses.flatMap CascadeClause.steps
  | .mk var _ edges => edgeSteps_eq var edges

/-- The steps of edges match them, and those below, one after the other. -/
theorem edgeSteps_eq (source : String) : (edges : List CascadeEdge) →
    CascadePlan.edgeSteps source edges = (edgesClauses source edges).flatMap CascadeClause.steps
  | [] => rfl
  | .mk var type direction node :: rest => by
    rw [CascadePlan.edgeSteps, edgesClauses, List.flatMap_append, List.flatMap_cons,
      node.matchSteps_eq, edgeSteps_eq source rest]
    rfl

end

mutual

/-- The entities below the root are the far ends of the edges. -/
theorem CascadePlan.descendants_eq : (plan : CascadePlan) →
    plan.descendants = plan.clauses.map CascadeClause.node
  | .mk var _ edges => edgesDescendants_eq var edges

/-- The entities behind edges are the far ends of these and of the edges below. -/
theorem edgesDescendants_eq (source : String) : (edges : List CascadeEdge) →
    CascadePlan.edgesDescendants edges = (edgesClauses source edges).map CascadeClause.node
  | [] => rfl
  | .mk var type direction node :: rest => by
    rw [CascadePlan.edgesDescendants, edgesClauses, List.map_append, List.map_cons,
      node.descendants_eq, edgesDescendants_eq source rest]

end

/-- Clauses that begin at known entities do so where more is known. -/
theorem SourcesKnown.mono {known more : List String} {clauses : List CascadeClause}
    (h : SourcesKnown known clauses) (hmore : known ⊆ more) : SourcesKnown more clauses := by
  induction clauses generalizing known more with
  | nil => trivial
  | cons clause rest ih =>
    exact ⟨hmore h.1, ih h.2 (List.append_subset.mpr
      ⟨List.Subset.trans hmore (List.subset_append_left _ _), List.subset_append_right _ _⟩)⟩

/-- Clauses in a row begin at known entities if each of the two lists does. -/
theorem SourcesKnown.append {known : List String} {clauses more : List CascadeClause}
    (h : SourcesKnown known clauses) (hmore : SourcesKnown known more) :
    SourcesKnown known (clauses ++ more) := by
  induction clauses generalizing known with
  | nil => exact hmore
  | cons clause rest ih => exact ⟨h.1, ih h.2 (hmore.mono (List.subset_append_left _ _))⟩

mutual

/-- The clauses of a plan begin at its root, or at what an earlier one has matched. -/
theorem CascadePlan.sourcesKnown_clauses : (plan : CascadePlan) →
    SourcesKnown [plan.var] plan.clauses
  | .mk var _ edges => sourcesKnown_edgesClauses var edges

/-- The clauses of edges begin at the entity that these leave, or at what an earlier one has
matched. -/
theorem sourcesKnown_edgesClauses (source : String) : (edges : List CascadeEdge) →
    SourcesKnown [source] (edgesClauses source edges)
  | [] => trivial
  | .mk var type direction node :: rest => by
    have hfar : [node.var] ⊆ [source] ++ [node.var] := List.subset_append_right _ _
    have hbelow : SourcesKnown [source]
        (⟨source, var, type, direction, node.var, node.labels⟩ :: node.clauses) :=
      ⟨List.mem_singleton_self source, node.sourcesKnown_clauses.mono hfar⟩
    exact hbelow.append (sourcesKnown_edgesClauses source rest)

end

/-- The steps of a clause open one statement, which matches the edge. -/
theorem run_clause (draft : Draft) (clause : CascadeClause) :
    draft.run clause.steps = .ok (draft.openStatement clause.statement) := rfl

/-- The steps of clauses open a statement each. -/
theorem run_clauses (draft : Draft) (clauses : List CascadeClause) :
    draft.run (clauses.flatMap CascadeClause.steps) =
      .ok ((clauses.map CascadeClause.statement).foldl Draft.openStatement draft) := by
  induction clauses generalizing draft with
  | nil => rfl
  | cons clause rest ih =>
    rw [List.flatMap_cons, List.map_cons, List.foldl_cons]
    exact run_append_eq_ok (run_clause draft clause) (ih _)

/-- Statements that are opened one after the other come behind those that are there, and bind
nothing. -/
theorem foldl_openStatement (draft : Draft) (opened : List Statement) :
    (opened.foldl Draft.openStatement draft).statements = draft.statements ++ opened ∧
      (opened.foldl Draft.openStatement draft).params = draft.params ∧
      (draft.current.isSome → (opened.foldl Draft.openStatement draft).current.isSome) := by
  induction opened generalizing draft with
  | nil => exact ⟨(List.append_nil _).symm, rfl, id⟩
  | cons s rest ih =>
    obtain ⟨hstatements, hparams, hcurrent⟩ := ih (draft.openStatement s)
    rw [List.foldl_cons]
    refine ⟨?_, hparams, fun _ => hcurrent rfl⟩
    have hopened : (draft.openStatement s).statements = draft.statements ++ [s] := rfl
    rw [hstatements, hopened, List.append_assoc]
    rfl

/-- Deletes are added to the open statement. -/
theorem run_detachDelete {draft : Draft} {s : Statement} (h : draft.current = some s)
    (vars : List String) :
    draft.run (vars.map .detachDelete) =
      .ok { draft with current := some { s with detachDelete := s.detachDelete ++ vars } } := by
  induction vars generalizing draft s with
  | nil =>
    rw [List.append_nil, ← h]
    rfl
  | cons var rest ih =>
    rw [List.map_cons]
    have hstep : draft.step (.detachDelete var) =
        .ok { draft with current := some { s with detachDelete := s.detachDelete ++ [var] } } := by
      rw [Draft.step, Draft.modify, h]
    refine run_cons_eq_ok hstep ?_
    rw [ih rfl, List.append_assoc]
    rfl

/-- The steps that find the root open its statement, and bind its identity. -/
theorem run_root (plan : CascadePlan) (identity : Identity) :
    ∃ param found, Draft.run {} [.start .find plan.var plan.labels [],
        .whereId plan.var identity] = .ok found ∧
      found.statements = [plan.rootStatement param] ∧ found.current.isSome ∧
      found.params = [(param, .int identity)] :=
  ⟨_, _, rfl, rfl, rfl, rfl⟩

/-- What the query of a plan is made of: a statement that finds the root, one for each edge, and in
the last of them the deletes. -/
structure CascadePlan.Drafted (plan : CascadePlan) (identity : Identity) (draft : Draft) :
    Prop where
  /-- Every clause begins at the root, or at an entity that an earlier clause has matched. -/
  sources : SourcesKnown [plan.var] plan.clauses
  /-- Only the identity of the root is bound, and only the last statement deletes: all the entities
  that are matched, the root last. -/
  statements : ∃ param front last,
    draft.params = [(param, .int identity)] ∧
    plan.rootStatement param :: plan.clauses.map CascadeClause.statement = front ++ [last] ∧
    draft.statements = front ++
      [{ last with detachDelete := plan.clauses.map CascadeClause.node ++ [plan.var] }] ∧
    ∀ s ∈ front, s.delete = [] ∧ s.detachDelete = []

/-- Neither the statement of the root nor those of the edges delete. -/
theorem delete_eq_nil_of_mem {plan : CascadePlan} {param : String} {s : Statement}
    (h : s ∈ plan.rootStatement param :: plan.clauses.map CascadeClause.statement) :
    s.delete = [] ∧ s.detachDelete = [] := by
  rcases List.mem_cons.mp h with rfl | h
  · exact ⟨rfl, rfl⟩
  · obtain ⟨clause, -, rfl⟩ := List.mem_map.mp h
    exact ⟨rfl, rfl⟩

/-- The steps of a plan find the root, match the edges, and delete. -/
theorem CascadePlan.steps_eq (plan : CascadePlan) (identity : Identity) :
    plan.steps identity =
      [.start .find plan.var plan.labels [], .whereId plan.var identity] ++
        (plan.clauses.flatMap CascadeClause.steps ++
          (plan.clauses.map CascadeClause.node ++ [plan.var]).map .detachDelete) := by
  rw [CascadePlan.steps, plan.matchSteps_eq, plan.descendants_eq, List.map_append]
  simp only [List.append_assoc, List.map_singleton]

/-- Every plan is drafted. -/
theorem exists_draft_of_steps (plan : CascadePlan) (identity : Identity) :
    ∃ draft, Draft.run {} (plan.steps identity) = .ok draft ∧ plan.Drafted identity draft := by
  obtain ⟨param, found, hroot, hfound, hopen, hparams⟩ := run_root plan identity
  have hclauses := run_clauses found plan.clauses
  obtain ⟨hstatements, hbound, hcurrent⟩ :=
    foldl_openStatement found (plan.clauses.map CascadeClause.statement)
  -- All edges are matched in `matched`, whose last statement is still open.
  generalize (plan.clauses.map CascadeClause.statement).foldl Draft.openStatement found = matched
    at hclauses hstatements hbound hcurrent
  obtain ⟨last, hlast⟩ := Option.isSome_iff_exists.mp (hcurrent hopen)
  have hdelete := run_detachDelete hlast (plan.clauses.map CascadeClause.node ++ [plan.var])
  have hrun := run_append_eq_ok hroot (run_append_eq_ok hclauses hdelete)
  rw [← plan.steps_eq identity] at hrun
  have hall : plan.rootStatement param :: plan.clauses.map CascadeClause.statement =
      matched.closed ++ [last] := by
    have hmatched : matched.statements = matched.closed ++ [last] := by
      rw [Draft.statements, hlast]
      rfl
    rw [← hmatched, hstatements, hfound]
    rfl
  have hnone : ∀ s ∈ matched.closed ++ [last], s.delete = [] ∧ s.detachDelete = [] :=
    fun s hs => delete_eq_nil_of_mem (hall ▸ hs)
  refine ⟨_, hrun, plan.sourcesKnown_clauses, param, matched.closed, last, ?_, hall, ?_, ?_⟩
  · exact hbound.trans hparams
  · rw [Draft.statements, (hnone last (by simp)).2]
    rfl
  · exact fun s hs => hnone s (List.mem_append_left _ hs)

/-- The paths of the plan are the walks of at most so many relationships, each of them once and in
depth-first order of the declarations. -/
def CascadePlan.Covers (registry : Registry) (levels : Nat) (model : EntityType)
    (plan : CascadePlan) : Prop :=
  ∃ walks : List (List Relationship),
    (∀ walk, walk ∈ walks ↔ DeleteWalk registry model walk ∧ walk.length ≤ levels) ∧
    (walks.map (List.map Relationship.name)).Nodup ∧
    walks.Pairwise (Precedes registry model) ∧
    plan.paths = walks.map (clausesAlong registry plan.var)

/-- A delete covers exactly what cascades reach within the limit. There is no plan if and only if
some walk within the limit ends in a type that is not registered; the refusal then names the last
relationship of such a walk and the type that declares it. Otherwise the paths of the plan are the
walks within the limit, and its query has a clause for the last edge of each path, in their order,
and deletes in its last statement alone, all that is matched and then the root. -/
theorem cascade_covers (registry : Registry) (levels : Nat) (var : String) (model : EntityType)
    (identity : Identity) :
    match CascadePlan.ofModel registry levels var (some model) with
    | .error e => ∃ (walk : List Relationship) (rel : Relationship) (owner : EntityType),
        DeleteWalk registry model (walk ++ [rel]) ∧ walk.length < levels ∧ registry.Misses rel ∧
        rel ∈ owner.cascading ∧ e = .unresolvedTarget rel.name owner.name
    | .ok plan =>
      (∀ walk rel, DeleteWalk registry model (walk ++ [rel]) → walk.length < levels →
        ¬registry.Misses rel) ∧
      plan.var = var ∧ plan.labels = model.labels ∧ plan.Covers registry levels model ∧
      plan.paths.map List.getLast? = plan.clauses.map some ∧
      ∃ draft, Draft.run {} (plan.steps identity) = .ok draft ∧ plan.Drafted identity draft := by
  cases hplan : CascadePlan.ofModel registry levels var (some model) with
  | error e => exact exists_walk_of_ofModel hplan
  | ok plan =>
    obtain ⟨hvar, hlabels⟩ := var_of_ofModel hplan
    have hcovers : plan.Covers registry levels model := by
      refine ⟨cascadeWalks registry levels model, fun walk => mem_cascadeWalks,
        cascadeWalks_names_nodup, cascadeWalks_pairwise, ?_⟩
      rw [hvar]
      exact paths_of_ofModel hplan
    exact ⟨fun walk rel => not_misses_of_ofModel hplan, hvar, hlabels, hcovers,
      plan.map_getLast?_paths, exists_draft_of_steps plan identity⟩

end GraphMapper
