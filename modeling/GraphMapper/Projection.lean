import GraphMapper.CompileError
import GraphMapper.Cypher.Pattern
import GraphMapper.Schema.Registry

/-!
# Eager projections

An entity is returned as a map projection, in which every eager relationship is a field with a
pattern comprehension: the path to the far node and the projection of what is found there. Beside
its properties a projected node has its identity and its labels under reserved keys, and a projected
relationship its identity and its type.

A projection unfolds the eager relationships of the schema, which may lead in circles, for a given
number of levels of nodes (`Projection.ofModel`). The root is the first level; the nodes behind the
last one are projected without their eager fields.
-/

namespace GraphMapper

open Cypher

/-- The key of the identity in a projection. -/
def identityKey : String := "__EAGER_ID__"

/-- The key of the labels in the projection of a node. -/
def labelsKey : String := "__EAGER_LABELS__"

/-- The key of the type in the projection of a relationship. -/
def typeKey : String := "__EAGER_TYPE__"

/-- The number of levels that are unfolded unless told otherwise. -/
def defaultEagerDepth : Nat := 3

mutual

/-- What is returned of a node or of a relationship. -/
inductive Projection where
  /-- A node with the named properties, or with all it has, and its eager fields. -/
  | node (var : String) (properties : Option (List String)) (fields : List EagerField)
  /-- A relationship with its properties and, under `nodeKey`, the far node. -/
  | relationship (var : String) (properties : List String) (nodeKey : String)
      (node : Projection)

/-- A field with the projection of all that is found along a path, or of the first of it. -/
inductive EagerField where
  | mk (name : String) (path : Path) (single : Bool) (projection : Projection)

end

namespace Projection

/-- The variable of what is projected. -/
def var : Projection → String
  | .node var _ _ => var
  | .relationship var _ _ _ => var

mutual

/-- How many nodes lie one within the other on the longest path. -/
def depth : Projection → Nat
  | .node _ _ fields => 1 + fieldsDepth fields
  | .relationship _ _ _ far => far.depth

/-- The greatest depth among the fields. -/
def fieldsDepth : List EagerField → Nat
  | [] => 0
  | .mk _ _ _ projection :: rest => max projection.depth (fieldsDepth rest)

end

/-- The names of properties as items of a map projection. -/
def propertyItems (names : List String) : List String :=
  names.map fun name => "." ++ quoteName name

/-- An item of a map projection with a key of its own. -/
def item (key expression : String) : String := key ++ ": " ++ expression

mutual

/-- The text of a projection. -/
def text : Projection → String
  | .node var properties fields =>
    let names := match properties with
      | none => [".*"]
      | some names => propertyItems names
    let markers :=
      [item identityKey ("id(" ++ var ++ ")"), item labelsKey ("labels(" ++ var ++ ")")]
    var ++ " \x7b " ++ Text.joined ", " (names ++ markers ++ fieldTexts fields) ++ " \x7d"
  | .relationship var properties nodeKey far =>
    let markers :=
      [item identityKey ("id(" ++ var ++ ")"), item typeKey ("type(" ++ var ++ ")")]
    var ++ " \x7b "
      ++ Text.joined ", "
        (propertyItems properties ++ markers ++ [item (quoteName nodeKey) far.text])
      ++ " \x7d"

/-- The text of each field; a single one takes the first element of what is found. -/
def fieldTexts : List EagerField → List String
  | [] => []
  | .mk name path single projection :: rest =>
    item (quoteName name)
      ("[ " ++ path.text ++ " | " ++ projection.text ++ " ]" ++ (if single then "[0]" else ""))
      :: fieldTexts rest

end

/-- The path from an entity along a relationship to the far node. -/
def path (var relVar nodeVar : String) (rel : Relationship) (labels : List String) : Path :=
  ⟨[.node { var := some var },
    .relationship ⟨some relVar, [rel.type], rel.direction, none⟩,
    .node { var := some nodeVar, labels := labels }]⟩

/-- What is projected at the far end of a relationship: the node, or the relationship with it. -/
def far (rel : Relationship) (relVar : String) (node : Projection) : Projection :=
  if rel.shape.isRelationship then
    .relationship relVar (rel.properties.map Property.name) rel.nodeKey node
  else node

/-- The eager field of a relationship, with the far node projected as `project` does. -/
def eagerField (registry : Registry)
    (project : String → Option EntityType → Except CompileError Projection) (var : String)
    (model : EntityType) (rel : Relationship) : Except CompileError EagerField :=
  let relVar := nestedVar var rel.name .relationship
  let nodeVar := nestedVar var rel.name .node
  match registry.target rel with
  | .error _ => .error (.unresolvedTarget rel.name model.name)
  | .ok target => do
    let labels := (target.map EntityType.labels).getD []
    let node ← project nodeVar target
    return .mk rel.name (path var relVar nodeVar rel labels) (!rel.shape.isCollection)
      (far rel relVar node)

/-- The projection of a node that is a `model`, or of a node of unknown type, with its eager fields
unfolded for so many levels. -/
def ofModel (registry : Registry) :
    Nat → String → Option EntityType → Except CompileError Projection
  | _, var, none => .ok (.node var none [])
  | 0, var, some model => .ok (.node var (some (model.visible.map Property.name)) [])
  | levels + 1, var, some model => do
    let fields ← model.eager.mapM (eagerField registry (ofModel registry levels) var model)
    return .node var (some (model.visible.map Property.name)) fields

/-- How many levels are left to unfold at a depth, counted from one, under a limit. -/
def levels (limit depth : Nat) : Nat := limit + 1 - depth

/-- The expression that returns an entity under its variable. -/
def returnExpression (registry : Registry) (limit : Nat) (var : String) (model : EntityType) :
    Except CompileError String := do
  let projection ← ofModel registry (levels limit 1) var (some model)
  return projection.text ++ " AS " ++ var

end Projection

end GraphMapper
