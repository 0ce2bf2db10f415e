import GraphMapper.Constraints
import GraphMapper.Mapper.Request

/-!
# Queries of the caller

Queries that the caller wrote, one by one or as a batch, and those that install or drop what the
schema asks of the database.

A batch is one transaction: all of it is committed, or none of it and every failure is reported.
What comes of it depends on the outcome of each query and not on the order in which they complete.
-/

namespace GraphMapper

open Cypher (Query)

/-- The queries of a batch that failed, in the order of the batch. -/
def batchFailures (queries : List Query) (completions : List Completion) : List BatchFailure :=
  queries.zipIdx.filterMap fun (query, index) =>
    match outcomeAt? completions index with
    | some (.error cause) => some ⟨index, query, cause⟩
    | _ => none

/-- The rows of the queries of a batch, in the order of the batch. -/
def batchRows (queries : List Query) (completions : List Completion) : List (List Row) :=
  queries.zipIdx.filterMap fun (_, index) =>
    match outcomeAt? completions index with
    | some (.ok rows) => some rows
    | _ => none

namespace Mapper

/-- Runs a query of the caller. -/
def cypher (access : Access) (query : Query) : Dialogue (Except MapperError (List Row)) :=
  Request.send ⟨access, query, .ok⟩

/-- Runs queries in one transaction, all at once. -/
def batch (queries : List Query) : Dialogue (Except MapperError (List (List Row))) :=
  .begin fun
    | .error cause => .done (.error (.transaction cause))
    | .ok () => .dispatch queries fun completions =>
      match batchFailures queries completions with
      | [] => .commit fun
        | .ok () => .done (.ok (batchRows queries completions))
        | .error cause => .done (.error (.transaction cause))
      -- A failing rollback would hide the failures that led to it.
      | failures => .rollback fun _ => .done (.error (.batch failures))

/-- Installs what the schema asks of the database. -/
def installSchema (mapper : Mapper) : Dialogue (Except MapperError Unit) :=
  Dialogue.inTurn .write (installQueries mapper.registry mapper.config.enterprise)

/-- Drops what the schema asks of the database. -/
def dropSchema (mapper : Mapper) : Dialogue (Except MapperError Unit) :=
  Dialogue.inTurn .write (dropQueries mapper.registry mapper.config.enterprise)

end Mapper

end GraphMapper
