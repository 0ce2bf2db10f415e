import GraphMapper.CompileError
import GraphMapper.Cypher.Draft
import GraphMapper.Schema.Registry
import GraphMapper.Write.Split

/-!
# Write plans

A payload may hold related entities under the keys of relationships: a node that the database
returned, a scalar that stands for the entity with that primary key, or a bag, which is merged and
may hold further entities. A plan lays the whole write out as a tree, and `WritePlan.steps` turns it
into the steps of a query.

Before each relationship the variables of the entity and of all its ancestors are carried on, so
that both ends of the relationship are known where it is written.
-/

namespace GraphMapper

open Cypher

/-- The variable of the root of a write. -/
def rootVar : String := "this"

/-- How deep payloads are written unless told otherwise. -/
def defaultWriteDepth : Nat := 99

/-- What is done with entities below the limit of depth. -/
inductive Overflow where
  /-- They are left out. -/
  | truncate
  /-- The write is refused. -/
  | error
  deriving DecidableEq

/-- The policy of that name. -/
def Overflow.ofName? : String → Option Overflow
  | "truncate" => some .truncate
  | "error" => some .error
  | _ => none

/-- The policy as documents spell it. -/
def Overflow.name : Overflow → String
  | .truncate => "truncate"
  | .error => "error"

mutual

/-- An entity that is written, with its relationships. -/
inductive WritePlan where
  | mk (mode : WriteMode) (var : String) (labels : List String) (split : Split)
      (links : List WriteLink)

/-- A relationship that is written. -/
inductive WriteLink where
  | mk (name type : String) (direction : Direction) (var : String) (properties : Bag)
      (target : WriteTarget)

/-- How the far node of a relationship is obtained. -/
inductive WriteTarget where
  /-- It is found by its identity. -/
  | existing (var : String) (identity : Identity)
  /-- It is merged by its primary key. -/
  | reference (var : String) (labels : List String) (key : String) (value : Value)
  /-- It is written as planned. -/
  | nested (plan : WritePlan)

end

namespace WritePlan

/-- The variable of the entity. -/
def var : WritePlan → String
  | .mk _ var _ _ _ => var

end WritePlan

/-- The variable of the far node. -/
def WriteTarget.var : WriteTarget → String
  | .existing var _ => var
  | .reference var _ _ _ => var
  | .nested plan => plan.var

mutual

/-- The number of nodes that the plan writes or finds. -/
def WritePlan.nodeCount : WritePlan → Nat
  | .mk _ _ _ _ links => 1 + linksNodeCount links

/-- The number of nodes behind relationships. -/
def linksNodeCount : List WriteLink → Nat
  | [] => 0
  | .mk _ _ _ _ _ target :: rest => target.nodeCount + linksNodeCount rest

/-- The number of nodes at the far end. -/
def WriteTarget.nodeCount : WriteTarget → Nat
  | .nested plan => plan.nodeCount
  | _ => 1

end

mutual

/-- The levels of nodes below the entity. -/
def WritePlan.depth : WritePlan → Nat
  | .mk _ _ _ _ links => linksDepth links

/-- The greatest number of levels behind relationships. -/
def linksDepth : List WriteLink → Nat
  | [] => 0
  | .mk _ _ _ _ _ target :: rest => max target.depth (linksDepth rest)

/-- The levels of nodes from the far end on. -/
def WriteTarget.depth : WriteTarget → Nat
  | .nested plan => 1 + plan.depth
  | _ => 1

end

/-- The limit of depth and what is done below it. -/
structure WriteLimit where
  depth : Nat := defaultWriteDepth
  overflow : Overflow := .truncate

/-- The items under the key of a relationship: those of a list where the shape is a collection, and
the value itself otherwise. -/
def relatedItems (shape : Shape) : Value → List Value
  | .list items => if shape.isCollection then items else [.list items]
  | value => [value]

/-- What variables of a relationship end in: the index of the item where the shape is a
collection. -/
def varSuffix (shape : Shape) (index : Nat) : String :=
  if shape.isCollection then "_" ++ toString index else ""

/-- The declared properties of a relationship that are not null. -/
def linkProperties (rel : Relationship) (bag : Bag) : Bag :=
  bag.filter fun entry => (rel.property? entry.1).isSome && !entry.2.isNull

/-- The far node of an item and the properties of its relationship. -/
def splitItem (model : EntityType) (rel : Relationship) (item : Value) :
    Except CompileError (Value × Bag) :=
  if rel.shape.isRelationship then
    match item with
    | .map entries =>
      match KeyedList.get? entries rel.nodeKey with
      | some node => .ok (node, linkProperties rel entries)
      | none => .error (.missingRelationshipNode rel.name model.name rel.nodeKey)
    | other => .error (.invalidReference rel.name model.name other.typeName)
  else .ok (item, [])

/-- The variable of the far node of an item of a relationship. -/
def farVar (var : String) (rel : Relationship) (index : Nat) : String :=
  nestedVar var rel.name .node ++ varSuffix rel.shape index

/-- The variable of the relationship to an item. -/
def linkVar (var : String) (rel : Relationship) (index : Nat) : String :=
  nestedVar var rel.name .relationship ++ varSuffix rel.shape index

/-- The target of a reference by a scalar. -/
def scalarTarget (model : EntityType) (rel : Relationship) (target : EntityType) (var : String)
    (value : Value) : Except CompileError WriteTarget :=
  match target.primaryKey? with
  | some key => .ok (.reference var target.labels key value)
  | none => .error (.missingPrimaryKey rel.name model.name target.name)

/-- Plans how a far node is obtained, with bags as `planBag` does. -/
def planFar (planBag : String → EntityType → Bag → Except CompileError WritePlan)
    (model : EntityType) (rel : Relationship) (target : EntityType) (var : String) :
    Value → Except CompileError WriteTarget
  | .node identity _ _ => .ok (.existing var identity)
  | .map entries => (planBag var target entries).map .nested
  | other =>
    if other.isScalar then scalarTarget model rel target var other
    else .error (.invalidReference rel.name model.name other.typeName)

/-- Plans the relationship to one item, which has an index. -/
def planItem (planBag : String → EntityType → Bag → Except CompileError WritePlan) (var : String)
    (model : EntityType) (rel : Relationship) (target : EntityType) (item : Value × Nat) :
    Except CompileError WriteLink := do
  let (node, properties) ← splitItem model rel item.1
  let far ← planFar planBag model rel target (farVar var rel item.2) node
  return .mk rel.name rel.type rel.direction.forWriting (linkVar var rel item.2) properties far

/-- Plans what a bag holds under a relationship. -/
def planRelated (registry : Registry)
    (planBag : String → EntityType → Bag → Except CompileError WritePlan) (var : String)
    (model : EntityType) (bag : Bag) (rel : Relationship) :
    Except CompileError (List WriteLink) :=
  match bag.present? rel.name with
  | none => .ok []
  | some value =>
    match registry.target? rel with
    | none => .error (.unresolvedTarget rel.name model.name)
    | some target =>
      (relatedItems rel.shape value).zipIdx.mapM (planItem planBag var model rel target)

/-- Plans the write of a bag as an entity of type `model`, with its related entities for so many
levels. -/
def planNode (registry : Registry) (limit : WriteLimit) :
    Nat → WriteMode → String → EntityType → Bag → Except CompileError WritePlan
  | 0, mode, var, model, bag =>
    -- The first relationship with a value is the one that a refusal names.
    match limit.overflow, model.relationships.find? fun rel => (bag.present? rel.name).isSome with
    | .error, some rel => .error (.depthExceeded limit.depth rel.name)
    | _, _ => .ok (.mk mode var model.labels (splitProperties mode model bag) [])
  | levels + 1, mode, var, model, bag => do
    -- Below the root everything is merged, in a creation too.
    let links ← model.relationships.mapM
      (planRelated registry (planNode registry limit levels .merge) var model bag)
    return .mk mode var model.labels (splitProperties mode model bag) links.flatten

/-- Plans the write of a payload. -/
def WritePlan.ofPayload (registry : Registry) (limit : WriteLimit) (mode : WriteMode)
    (var : String) (model : EntityType) (payload : Bag) : Except CompileError WritePlan :=
  planNode registry limit limit.depth mode var model payload

/-- The verb that writes an entity. -/
def WriteMode.verb : WriteMode → Verb
  | .create => .create
  | .merge => .merge

mutual

/-- The steps that write an entity and all that is related to it, under the variables in scope. -/
def WritePlan.stepsIn (scope : List String) : WritePlan → List Step
  | .mk mode var labels split links =>
    .start mode.verb var labels split.inline
      :: Step.createProperties var split.onCreate
      ++ Step.setProperties var split.set
      ++ linkSteps mode.verb var (scope ++ [var]) links

/-- The steps that write relationships of the entity with the given variable. -/
def linkSteps (verb : Verb) (var : String) (scope : List String) : List WriteLink → List Step
  | [] => []
  | .mk _ type direction relVar properties target :: rest =>
    .carry scope
      :: target.steps scope
      ++ [.start verb var [] [],
        .relationship (some relVar) [type] direction none,
        .to target.var [] []]
      ++ Step.setProperties relVar properties
      ++ linkSteps verb var scope rest

/-- The steps that obtain the far node of a relationship. -/
def WriteTarget.steps (scope : List String) : WriteTarget → List Step
  | .existing var identity => [.start .find var [] [], .whereId var identity]
  | .reference var labels key value => [.start .merge var labels [(key, value)]]
  | .nested plan => plan.stepsIn scope

end

/-- The steps that write the whole plan. -/
def WritePlan.steps (plan : WritePlan) : List Step :=
  plan.stepsIn []

end GraphMapper
