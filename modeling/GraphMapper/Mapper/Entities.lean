import GraphMapper.CascadePlan
import GraphMapper.Mapper.Preparation
import GraphMapper.Mapper.Request

/-!
# Writing and finding entities

The operations on single entities and on all entities of a type. A creation and a merge prepare the
payload, write it in one query and return the entity as the query leaves it. An update sets only
what may change after creation. A delete is carried on along cascades.
-/

namespace GraphMapper

open Cypher (Query SortOrder Step)

/-- The word for a write in messages. -/
def WriteMode.title : WriteMode → String
  | .create => "Create"
  | .merge => "Merge"

/-- Whether an update may set the property. -/
def Property.isWritable (p : Property) : Bool :=
  !(p.primary || p.createOnly || p.readonly)

/-- Which entities of a type are wanted, in which order, and which of them. -/
structure Selection where
  properties : Bag := []
  order : List (String × SortOrder) := []
  skip : Option Nat := none
  limit : Option Nat := none

namespace Mapper

variable (mapper : Mapper)

/-- The query that writes a payload which needs no more preparation. -/
def writeQuery (mode : WriteMode) (model : EntityType) (payload : Bag) :
    Except MapperError Query := do
  let plan ← (WritePlan.ofPayload mapper.registry mapper.config.writeLimit mode rootVar model
    payload).mapError .compile
  let expression ← mapper.returned rootVar model
  queryOf (plan.steps ++ [.carry [rootVar], .returning [expression]])

/-- The request that writes a payload. -/
def writeRequest (mode : WriteMode) (name : String) (payload : Bag) :
    Preparing (Request Node) := do
  let model ← Preparing.ofExcept (mapper.model name)
  let prepared ← prepare mapper.registry mapper.config.maxWriteDepth model payload
  let query ← Preparing.ofExcept (mapper.writeQuery mode model prepared)
  return ⟨.write, query, mapper.firstNode rootVar model (mode.title ++ " " ++ model.name)⟩

/-- Writes a payload. What is taken from the supply stays taken if the payload is refused. -/
def write (mode : WriteMode) (name : String) (payload : Bag) :
    StateM Supply (Dialogue (Except MapperError Node)) := do
  return Dialogue.ofRequest (← (mapper.writeRequest mode name payload).run)

/-- Creates an entity and all that is nested in the payload. -/
def create (name : String) (payload : Bag) : StateM Supply (Dialogue (Except MapperError Node)) :=
  mapper.write .create name payload

/-- Merges an entity, and all that is nested in the payload, by the merge fields of each type. -/
def merge (name : String) (payload : Bag) : StateM Supply (Dialogue (Except MapperError Node)) :=
  mapper.write .merge name payload

/-- The entries that an update of an entity sets. -/
def writable (model : EntityType) (payload : Bag) : Bag :=
  payload.filter fun entry => (model.property? entry.1).any Property.isWritable

/-- The request that updates an entity. -/
def updateRequest (node : Node) (payload : Bag) : Except MapperError (Request Node) := do
  let model := node.model
  -- Properties that an update never sets are checked all the same.
  let checked ← (validate .update model payload).mapError .validation
  let expression ← mapper.returned rootVar model
  let query ← queryOf
    ([.start .find rootVar model.labels [], .whereId rootVar node.identity]
      ++ Step.setProperties rootVar (writable model checked)
      ++ [.returning [expression]])
  return ⟨.write, query, mapper.firstNode rootVar model ("update " ++ model.name)⟩

/-- Sets the properties in a payload that may change. -/
def update (node : Node) (payload : Bag) : Dialogue (Except MapperError Node) :=
  Dialogue.ofRequest (mapper.updateRequest node payload)

/-- A request of which only the effect counts. -/
def effect (query : Query) : Request Unit :=
  ⟨.write, query, fun _ => .ok ()⟩

/-- The query that deletes the entity of a type with an identity, with cascades for so many
levels. -/
def deleteQuery (levels : Nat) (model : EntityType) (identity : Identity) :
    Except MapperError Query := do
  let plan ← (CascadePlan.ofModel mapper.registry levels rootVar (some model)).mapError .compile
  queryOf (plan.steps identity)

/-- Deletes an entity, with cascades for so many levels. -/
def deleteWithDepth (levels : Nat) (node : Node) : Dialogue (Except MapperError Unit) :=
  Dialogue.ofRequest ((mapper.deleteQuery levels node.model node.identity).map effect)

/-- Deletes an entity, with cascades as deep as configured. -/
def delete (node : Node) : Dialogue (Except MapperError Unit) :=
  mapper.deleteWithDepth mapper.config.maxCascadeDepth node

/-- The query that deletes all entities of a type. -/
def deleteAllQuery (name : String) : Except MapperError Query := do
  queryOf (deleteAllSteps rootVar (← mapper.model name))

/-- Deletes all entities of a type. -/
def deleteAll (name : String) : Dialogue (Except MapperError Unit) :=
  Dialogue.ofRequest ((mapper.deleteAllQuery name).map effect)

/-- The request for the first entity of a type that meets the conditions. -/
def findRequest (name : String) (conditions : List Step) :
    Except MapperError (Request (Option Node)) := do
  let model ← mapper.model name
  let expression ← mapper.returned rootVar model
  let query ← queryOf (.start .find rootVar model.labels [] :: conditions
    ++ [.returning [expression], .limit 1])
  return ⟨.read, query, mapper.firstNode? rootVar model⟩

/-- Finds the entity with an identity. -/
def find (name : String) (identity : Identity) : Dialogue (Except MapperError (Option Node)) :=
  Dialogue.ofRequest (mapper.findRequest name [.whereId rootVar identity])

/-- Finds the first entity with a value under a key. -/
def findBy (name key : String) (value : Value) : Dialogue (Except MapperError (Option Node)) :=
  Dialogue.ofRequest (mapper.findRequest name (Step.whereProperties rootVar [(key, value)]))

/-- Finds the first entity that has all the given properties. -/
def first (name : String) (properties : Bag) : Dialogue (Except MapperError (Option Node)) :=
  Dialogue.ofRequest (mapper.findRequest name (Step.whereProperties rootVar properties))

/-- The request for a selection of the entities of a type. -/
def allRequest (name : String) (selection : Selection) :
    Except MapperError (Request (List Node)) := do
  let model ← mapper.model name
  let expression ← mapper.returned rootVar model
  let query ← queryOf
    (.start .find rootVar model.labels []
      :: Step.whereProperties rootVar selection.properties
      ++ [.returning [expression]]
      ++ selection.order.map (fun item => .orderBy (Step.property rootVar item.1) item.2)
      ++ (selection.skip.map Step.skip).toList
      ++ (selection.limit.map Step.limit).toList)
  return ⟨.read, query, fun rows => (Node.ofRows mapper.registry mapper.config.maxEagerDepth
    rootVar (some model) rows).mapError .hydration⟩

/-- Finds a selection of the entities of a type. -/
def all (name : String) (selection : Selection) : Dialogue (Except MapperError (List Node)) :=
  Dialogue.ofRequest (mapper.allRequest name selection)

end Mapper

end GraphMapper
