import GraphMapper.Config
import GraphMapper.Mapper.Error

/-!
# Requests

Most operations send one query. A request is such a query before it is sent, together with what its
rows will mean; an operation that is refused never comes to a request, and so never reaches the
database.
-/

namespace GraphMapper

open Cypher (Draft Query Step)

/-- The registered types and the settings of a mapper. -/
structure Mapper where
  registry : Registry
  config : Config := {}

/-- A query that is ready to be sent, and what its rows mean. -/
structure Request (α : Type) where
  access : Access
  query : Query
  answer : List Row → Except MapperError α

/-- Sends a request. A failure of the database is reported with the query. -/
def Request.send {α : Type} (request : Request α) : Dialogue (Except MapperError α) :=
  .run request.access request.query fun
    | .ok rows => .done (request.answer rows)
    | .error cause => .done (.error (.execution request.query cause))

/-- Sends the request that an operation came to, or ends with the reason why there is none. -/
def Dialogue.ofRequest {α : Type} :
    Except MapperError (Request α) → Dialogue (Except MapperError α)
  | .ok request => request.send
  | .error e => .done (.error e)

/-- Runs queries one after the other up to the first failure. -/
def Dialogue.inTurn (access : Access) : List Query → Dialogue (Except MapperError Unit)
  | [] => .done (.ok ())
  | query :: rest => .run access query fun
    | .ok _ => inTurn access rest
    | .error cause => .done (.error (.execution query cause))

namespace Mapper

/-- The registered type of that name. -/
def model (mapper : Mapper) (name : String) : Except MapperError EntityType :=
  (mapper.registry.model name).mapError .schema

/-- The query that steps draft. -/
def queryOf (steps : List Step) : Except MapperError Query :=
  ((Draft.run {} steps).map Draft.query).mapError .fault

/-- The expression that returns an entity with its eager fields. -/
def returned (mapper : Mapper) (var : String) (model : EntityType) :
    Except MapperError String :=
  (Projection.returnExpression mapper.registry mapper.config.maxEagerDepth var model).mapError
    .compile

/-- The node in one column of the first row, if there is one. -/
def firstNode? (mapper : Mapper) (var : String) (model : EntityType) (rows : List Row) :
    Except MapperError (Option Node) :=
  (Node.ofFirstRow mapper.registry mapper.config.maxEagerDepth var (some model) rows).mapError
    .hydration

/-- The node in one column of the first row, which a request of the given title must have. -/
def firstNode (mapper : Mapper) (var : String) (model : EntityType) (title : String)
    (rows : List Row) : Except MapperError Node := do
  match ← mapper.firstNode? var model rows with
  | some node => return node
  | none => throw (.emptyResult title)

end Mapper

end GraphMapper
