import GraphMapper.CompileError
import GraphMapper.Dialogue
import GraphMapper.Hydration
import GraphMapper.Validation

/-!
# Mapper errors

Why an operation of the mapper does not succeed.
-/

namespace GraphMapper

open Cypher (Query)

/-- One query of a batch that failed, with its place in the batch. -/
structure BatchFailure where
  index : Nat
  query : Query
  cause : DatabaseError

/-- Place, cause and query. -/
def BatchFailure.text (failure : BatchFailure) : String :=
  "#" ++ toString failure.index ++ ": " ++ failure.cause.text ++ " (" ++ failure.query.text ++ ")"

/-- The causes for which an operation fails. -/
inductive MapperError where
  | schema (cause : SchemaError)
  | compile (cause : CompileError)
  | validation (cause : ValidationError)
  | hydration (cause : HydrationError)
  | relationshipNotFound (model relationship : String)
  | execution (query : Query) (cause : DatabaseError)
  | batch (failures : List BatchFailure)
  | transaction (cause : DatabaseError)
  | emptyResult (request : String)
  /-- The steps of a query were in no order that a query can have. -/
  | fault (cause : Cypher.Fault)

/-- The text of the error. -/
def MapperError.message (diagnosis : Diagnosis) : MapperError → String
  | .schema cause => cause.message
  | .compile cause => cause.message
  | .validation cause => cause.message diagnosis
  | .hydration cause => "could not hydrate result: " ++ cause.message
  | .relationshipNotFound model relationship =>
    "model " ++ model ++ " has no relationship named " ++ relationship
  | .execution query cause => "query failed: " ++ cause.text ++ "\nquery: " ++ query.text
  | .batch failures =>
    toString failures.length ++ " of the batch failed, nothing was committed:\n"
      ++ Text.joined "\n" (failures.map BatchFailure.text)
  | .transaction cause => "transaction failed: " ++ cause.text
  | .emptyResult request => request ++ " returned no rows"
  | .fault cause => cause.message

end GraphMapper
