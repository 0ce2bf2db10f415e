import GraphMapper.CompileError
import GraphMapper.Cypher.Draft
import GraphMapper.Schema.Registry

/-!
# Cascading deletes

With an entity everything is deleted that is reached from it along relationships declared with
cascade `delete`, up to a limit of depth. The plan is the tree of what is reached; the query matches
every edge of it, optionally, and deletes all the nodes at its end, the root last.
-/

namespace GraphMapper

open Cypher

/-- How deep deletes are carried on unless told otherwise. -/
def defaultCascadeDepth : Nat := 10

mutual

/-- An entity that is deleted. -/
inductive CascadePlan where
  | mk (var : String) (labels : List String) (edges : List CascadeEdge)

/-- A relationship along which a delete is carried on. -/
inductive CascadeEdge where
  | mk (var type : String) (direction : Direction) (node : CascadePlan)

end

namespace CascadePlan

/-- The variable of the entity. -/
def var : CascadePlan → String
  | .mk var _ _ => var

/-- The labels of the entity. -/
def labels : CascadePlan → List String
  | .mk _ labels _ => labels

mutual

/-- The number of entities that are deleted. -/
def nodeCount : CascadePlan → Nat
  | .mk _ _ edges => 1 + edgesNodeCount edges

/-- The number of entities behind edges. -/
def edgesNodeCount : List CascadeEdge → Nat
  | [] => 0
  | .mk _ _ _ node :: rest => node.nodeCount + edgesNodeCount rest

end

mutual

/-- The levels below the entity. -/
def depth : CascadePlan → Nat
  | .mk _ _ edges => edgesDepth edges

/-- The greatest number of levels behind edges. -/
def edgesDepth : List CascadeEdge → Nat
  | [] => 0
  | .mk _ _ _ node :: rest => max (1 + node.depth) (edgesDepth rest)

end

mutual

/-- The variables of all entities below this one, each before those below it. -/
def descendants : CascadePlan → List String
  | .mk _ _ edges => edgesDescendants edges

/-- The variables of all entities behind edges. -/
def edgesDescendants : List CascadeEdge → List String
  | [] => []
  | .mk _ _ _ node :: rest => node.var :: node.descendants ++ edgesDescendants rest

end

/-- Plans the delete of an entity of type `model`, or of a node of unknown type, which is carried on
for so many levels. -/
def ofModel (registry : Registry) :
    Nat → String → Option EntityType → Except CompileError CascadePlan
  | _, var, none => .ok (.mk var [] [])
  | 0, var, some model => .ok (.mk var model.labels [])
  | levels + 1, var, some model => do
    let edges ← (model.relationships.filter (·.cascade = .delete)).mapM fun rel => do
      let target ← match registry.target rel with
        | .ok target => pure target
        | .error _ => throw (.unresolvedTarget rel.name model.name)
      let node ← ofModel registry levels (nestedVar var rel.name .node) target
      return CascadeEdge.mk (nestedVar var rel.name .relationship) rel.type rel.direction node
    return .mk var model.labels edges

mutual

/-- The steps that match all edges below an entity. -/
def matchSteps : CascadePlan → List Step
  | .mk var _ edges => edgeSteps var edges

/-- The steps that match edges of the entity with the given variable, and all edges below. -/
def edgeSteps (var : String) : List CascadeEdge → List Step
  | [] => []
  | .mk relVar type direction node :: rest =>
    [.start .findOptional var [] [],
      .relationship (some relVar) [type] direction none,
      .to node.var node.labels []]
      ++ node.matchSteps ++ edgeSteps var rest

end

/-- The steps that delete the entity with the given identity and all below it. -/
def steps (plan : CascadePlan) (identity : Identity) : List Step :=
  [.start .find plan.var plan.labels [], .whereId plan.var identity]
    ++ plan.matchSteps
    ++ plan.descendants.map .detachDelete
    ++ [.detachDelete plan.var]

end CascadePlan

/-- The steps that delete every entity of a type, and nothing beyond. -/
def deleteAllSteps (var : String) (model : EntityType) : List Step :=
  [.start .find var model.labels [], .detachDelete var]

end GraphMapper
