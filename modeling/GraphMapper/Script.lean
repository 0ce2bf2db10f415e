import GraphMapper.Dialogue

/-!
# Scripted databases

A database that answers queries from a list, in order, and with no rows when the list is at its end.
Opening and ending a transaction can be made to fail. It keeps a log of all calls.
-/

namespace GraphMapper

open Cypher (Query)

/-- A call as the log has it. -/
inductive LogEntry where
  | run (access : Access) (query : Query)
  | begin
  | runInTransaction (query : Query)
  | commit
  | rollback

/-- What remains of a script, and the calls so far. -/
structure Script where
  outcomes : List Outcome := []
  beginError : Option DatabaseError := none
  commitError : Option DatabaseError := none
  rollbackError : Option DatabaseError := none
  log : List LogEntry := []

namespace Script

/-- Logs a call. -/
def note (entry : LogEntry) : StateM Script Unit :=
  modify fun script => { script with log := script.log ++ [entry] }

/-- Takes the next outcome. -/
def answer : StateM Script Outcome := fun script =>
  match script.outcomes with
  | [] => (.ok [], script)
  | outcome :: rest => (outcome, { script with outcomes := rest })

/-- Runs queries one after the other, with their indexes from `index` on. -/
def answerAll (index : Nat) : List Query → StateM Script (List Completion)
  | [] => pure []
  | query :: rest => do
    note (.runInTransaction query)
    let outcome ← answer
    return ⟨index, outcome⟩ :: (← answerAll (index + 1) rest)

/-- The reply to a call that can be made to fail. -/
def reply (e : Option DatabaseError) : Except DatabaseError Unit :=
  match e with
  | some e => .error e
  | none => .ok ()

/-- The database that follows its script. -/
def database : Database Script where
  run access query := do
    note (.run access query)
    answer
  begin := do
    note .begin
    return reply (← get).beginError
  dispatch queries := answerAll 0 queries
  commit := do
    note .commit
    return reply (← get).commitError
  rollback := do
    note .rollback
    return reply (← get).rollbackError

end Script

end GraphMapper
