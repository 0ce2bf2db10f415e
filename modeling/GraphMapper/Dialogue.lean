import GraphMapper.Cypher.Draft
import GraphMapper.Row

/-!
# Dialogues with a database

An operation of the mapper is a dialogue: it makes calls to a database, goes on with the replies,
and ends in a result. A dialogue is a value, independent of any database; `Dialogue.answeredBy`
carries it out with a database that is a function of its state.

The queries of a batch are dispatched together inside one transaction and may complete in any order;
the reply lists their completions in that order.
-/

namespace GraphMapper

open Cypher (Query)

/-- Whether a query only reads. -/
inductive Access where
  | read
  | write
  deriving DecidableEq

/-- The failure of a call, with the code of the server if it gave one. -/
structure DatabaseError where
  code : Option String := none
  message : String
  deriving DecidableEq

/-- The text of the failure. -/
def DatabaseError.text (e : DatabaseError) : String :=
  match e.code with
  | some code => "[" ++ code ++ "] " ++ e.message
  | none => e.message

/-- The reply to a query. -/
abbrev Outcome : Type := Except DatabaseError (List Row)

/-- The completion of one of the queries that were dispatched together. -/
structure Completion where
  index : Nat
  outcome : Outcome

/-- The rest of an operation from some point on. -/
inductive Dialogue (α : Type) where
  /-- The operation has ended. -/
  | done (result : α)
  /-- A query is run by itself. -/
  | run (access : Access) (query : Query) (next : Outcome → Dialogue α)
  /-- A transaction is opened. -/
  | begin (next : Except DatabaseError Unit → Dialogue α)
  /-- Queries are run in the open transaction, all at once. -/
  | dispatch (queries : List Query) (next : List Completion → Dialogue α)
  /-- The open transaction is committed. -/
  | commit (next : Except DatabaseError Unit → Dialogue α)
  /-- The open transaction is rolled back. -/
  | rollback (next : Except DatabaseError Unit → Dialogue α)

/-- Changes the result of a dialogue. -/
def Dialogue.map {α β : Type} (f : α → β) : Dialogue α → Dialogue β
  | .done result => .done (f result)
  | .run access query next => .run access query fun reply => (next reply).map f
  | .begin next => .begin fun reply => (next reply).map f
  | .dispatch queries next => .dispatch queries fun reply => (next reply).map f
  | .commit next => .commit fun reply => (next reply).map f
  | .rollback next => .rollback fun reply => (next reply).map f

/-- A database with states of type `σ`. -/
structure Database (σ : Type) where
  run : Access → Query → StateM σ Outcome
  begin : StateM σ (Except DatabaseError Unit)
  dispatch : List Query → StateM σ (List Completion)
  commit : StateM σ (Except DatabaseError Unit)
  rollback : StateM σ (Except DatabaseError Unit)

/-- Carries a dialogue out. -/
def Dialogue.answeredBy {α σ : Type} (db : Database σ) : Dialogue α → StateM σ α
  | .done result => pure result
  | .run access query next => do (next (← db.run access query)).answeredBy db
  | .begin next => do (next (← db.begin)).answeredBy db
  | .dispatch queries next => do (next (← db.dispatch queries)).answeredBy db
  | .commit next => do (next (← db.commit)).answeredBy db
  | .rollback next => do (next (← db.rollback)).answeredBy db

/-- The outcome of the query at an index, if it is among the completions. -/
def outcomeAt? (completions : List Completion) (index : Nat) : Option Outcome :=
  (completions.find? fun completion => completion.index = index).map Completion.outcome

end GraphMapper
