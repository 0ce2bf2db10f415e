import Mathlib.Data.List.Basic
import GraphMapper.Mapper.Batch

/-!
# A batch is all or nothing

Queries that are dispatched together start and complete one at a time, in any order: `Flight.Step`
is what can happen next, and a `Flight.Course` is all that happens until every query has completed.
Each step takes one query off those that have not started, or one completion off those that are
still due, so a course starts every query once and completes every query once
(`Course.starts_perm`, `Course.completions_perm`). An outcome is therefore found under the index of
its query, whichever came first (`Course.outcomeAt?_eq`).

A `Server` replies to every call as it likes and lets each dispatch take any course.
`batch_all_or_nothing` says what a batch does on every server: nothing after a failed opening; else
all queries, and then one commit if none failed, and one rollback if any did, with the failures of
the queries that failed. What it returns does not depend on the course.
-/

namespace GraphMapper

open Cypher (Query)
open scoped List

/-- What happens to one of the queries that were dispatched together. -/
inductive FlightEvent where
  | started (index : Nat) (query : Query)
  | completed (index : Nat) (outcome : Outcome)

/-- The query that starts with an event, and its index. -/
def FlightEvent.started? : FlightEvent → Option (Query × Nat)
  | .started index query => some (query, index)
  | .completed _ _ => none

/-- The completion that an event is. -/
def FlightEvent.completion? : FlightEvent → Option Completion
  | .started _ _ => none
  | .completed index outcome => some ⟨index, outcome⟩

/-- The queries that start, with their indexes. -/
def startsOf (events : List FlightEvent) : List (Query × Nat) :=
  events.filterMap FlightEvent.started?

theorem startsOf_cons (event : FlightEvent) (events : List FlightEvent) :
    startsOf (event :: events) = event.started?.toList ++ startsOf events := by
  cases event <;> rfl

/-- The completions, in the order in which they happen. -/
def completionsOf (events : List FlightEvent) : List Completion :=
  events.filterMap FlightEvent.completion?

theorem completionsOf_cons (event : FlightEvent) (events : List FlightEvent) :
    completionsOf (event :: events) = event.completion?.toList ++ completionsOf events := by
  cases event <;> rfl

/-- The queries of a dispatch that have not completed, with their indexes. -/
structure Flight where
  waiting : List (Query × Nat)
  running : List (Query × Nat)

namespace Flight

/-- The flight at the moment of the dispatch. -/
def ofQueries (queries : List Query) : Flight := ⟨queries.zipIdx, []⟩

/-- Any query that waits may start, and any that runs may complete. -/
inductive Step (outcome : Nat → Outcome) : Flight → FlightEvent → Flight → Prop
  | start (before after running : List (Query × Nat)) (query : Query) (index : Nat) :
    Step outcome ⟨before ++ (query, index) :: after, running⟩ (.started index query)
      ⟨before ++ after, (query, index) :: running⟩
  | complete (waiting before after : List (Query × Nat)) (query : Query) (index : Nat) :
    Step outcome ⟨waiting, before ++ (query, index) :: after⟩ (.completed index (outcome index))
      ⟨waiting, before ++ after⟩

/-- What can happen from a flight on until every query has completed. -/
inductive Course (outcome : Nat → Outcome) : Flight → List FlightEvent → Prop
  | landed : Course outcome ⟨[], []⟩ []
  | step {flight next : Flight} {event : FlightEvent} {events : List FlightEvent}
      (first : Step outcome flight event next) (rest : Course outcome next events) :
      Course outcome flight (event :: events)

/-- The completion of a query, given the outcomes. -/
def completion (outcome : Nat → Outcome) : Query × Nat → Completion
  | (_, index) => ⟨index, outcome index⟩

/-- The completions that are still to come. -/
def due (outcome : Nat → Outcome) (flight : Flight) : List Completion :=
  (flight.waiting ++ flight.running).map (completion outcome)

variable {outcome : Nat → Outcome} {flight next : Flight} {event : FlightEvent}
  {events : List FlightEvent} {queries : List Query}

/-- A query that starts was waiting. -/
theorem Step.waiting_perm (h : Step outcome flight event next) :
    flight.waiting ~ event.started?.toList ++ next.waiting := by
  cases h with
  | start before after running query index => exact List.perm_middle
  | complete waiting before after query index => exact List.Perm.refl waiting

/-- A query that completes was due, with the outcome under its index. -/
theorem Step.due_perm (h : Step outcome flight event next) :
    flight.due outcome ~ event.completion?.toList ++ next.due outcome := by
  cases h with
  | start before after running query index =>
    -- The query changes from the one list to the other.
    have hmoved : (before ++ (query, index) :: after) ++ running ~
        (before ++ after) ++ (query, index) :: running :=
      calc (before ++ (query, index) :: after) ++ running
        _ ~ ((query, index) :: (before ++ after)) ++ running :=
          List.perm_middle.append_right running
        _ ~ (before ++ after) ++ (query, index) :: running := List.perm_middle.symm
    exact hmoved.map (completion outcome)
  | complete waiting before after query index =>
    have htaken : waiting ++ (before ++ (query, index) :: after) ~
        (query, index) :: (waiting ++ (before ++ after)) := by
      rw [← List.append_assoc, ← List.append_assoc]
      exact List.perm_middle
    exact htaken.map (completion outcome)

namespace Course

/-- Every query that waits starts once. -/
theorem starts_perm (h : Course outcome flight events) : startsOf events ~ flight.waiting := by
  induction h with
  | landed => exact List.Perm.refl []
  | step first rest ih =>
    rw [startsOf_cons]
    exact (ih.append_left _).trans first.waiting_perm.symm

/-- Every query that has not completed completes once, with the outcome under its index. -/
theorem completions_perm (h : Course outcome flight events) :
    completionsOf events ~ flight.due outcome := by
  induction h with
  | landed => exact List.Perm.refl []
  | step first rest ih =>
    rw [completionsOf_cons]
    exact (ih.append_left _).trans first.due_perm.symm

/-- The completions are those of the queries that were dispatched. -/
theorem mem_completions_iff (h : Course outcome (ofQueries queries) events) {c : Completion} :
    c ∈ completionsOf events ↔ c.index < queries.length ∧ c.outcome = outcome c.index := by
  rw [h.completions_perm.mem_iff, due, ofQueries, List.append_nil, List.mem_map]
  constructor
  · rintro ⟨⟨query, index⟩, hentry, rfl⟩
    exact ⟨List.snd_lt_of_mem_zipIdx hentry, rfl⟩
  · obtain ⟨index, reply⟩ := c
    rintro ⟨hindex, houtcome⟩
    have hentry : (queries[index], index) ∈ queries.zipIdx :=
      List.mk_mem_zipIdx_iff_getElem?.mpr (List.getElem?_eq_getElem hindex)
    exact ⟨_, hentry, by rw [completion, ← houtcome]⟩

/-- The outcome of a query is found under its index. -/
theorem outcomeAt?_eq (h : Course outcome (ofQueries queries) events) {index : Nat}
    (hindex : index < queries.length) :
    outcomeAt? (completionsOf events) index = some (outcome index) := by
  have hmem : (⟨index, outcome index⟩ : Completion) ∈ completionsOf events :=
    h.mem_completions_iff.mpr ⟨hindex, rfl⟩
  have hsome : ((completionsOf events).find? fun c => c.index = index).isSome := by
    rw [List.find?_isSome]
    exact ⟨_, hmem, by simp⟩
  obtain ⟨found, hfound⟩ := Option.isSome_iff_exists.mp hsome
  have hat : found.index = index := by simpa using List.find?_some hfound
  have hits := (h.mem_completions_iff.mp (List.mem_of_find?_eq_some hfound)).2
  rw [outcomeAt?, hfound, Option.map_some, hits, hat]

end Course

/-- Queries that all run may complete in any order. The induction is on that order. -/
theorem course_of_perm {running order : List (Query × Nat)} (h : order ~ running) :
    Course outcome ⟨[], running⟩
      (order.map fun (_, index) => .completed index (outcome index)) := by
  induction order generalizing running with
  | nil =>
    obtain rfl := h.nil_eq
    exact .landed
  | cons first rest ih =>
    obtain ⟨before, after, rfl⟩ := List.append_of_mem (h.subset List.mem_cons_self)
    have hrest : rest ~ before ++ after := (h.trans List.perm_middle).cons_inv
    exact .step (.complete [] before after first.1 first.2) (ih hrest)

/-- Queries that wait may all start before anything else happens. -/
theorem course_of_starts {waiting running : List (Query × Nat)}
    (h : Course outcome ⟨[], waiting.reverse ++ running⟩ events) :
    Course outcome ⟨waiting, running⟩
      ((waiting.map fun (query, index) => .started index query) ++ events) := by
  induction waiting generalizing running with
  | nil => exact h
  | cons first rest ih =>
    rw [List.reverse_cons, List.append_assoc] at h
    exact .step (.start [] rest running first.1 first.2) (ih h)

end Flight

/-- The failures are those of the queries that failed, each once, in the order of the batch. -/
structure FailuresOf (queries : List Query) (outcome : Nat → Outcome)
    (failures : List BatchFailure) : Prop where
  ordered : failures.Pairwise fun a b => a.index < b.index
  mem_iff (failure : BatchFailure) : failure ∈ failures ↔
    queries[failure.index]? = some failure.query ∧ outcome failure.index = .error failure.cause

/-- The rows are those of the queries, all of which succeeded, in the order of the batch. -/
def RowsOf (queries : List Query) (outcome : Nat → Outcome) (rows : List (List Row)) : Prop :=
  rows.map .ok = (List.range queries.length).map outcome

section Reports

variable {outcome other : Nat → Outcome} {queries : List Query} {events : List FlightEvent}
  {failures : List BatchFailure} {rows : List (List Row)}

/-- Outcomes that are the same under the indexes of the batch have the same failures. -/
theorem FailuresOf.congr (hfailures : FailuresOf queries outcome failures)
    (hsame : ∀ index < queries.length, other index = outcome index) :
    FailuresOf queries other failures := by
  refine ⟨hfailures.ordered, fun failure => ?_⟩
  rw [hfailures.mem_iff]
  refine and_congr_right fun hquery => ?_
  have hindex : failure.index < queries.length := (List.getElem?_eq_some_iff.mp hquery).1
  rw [hsame _ hindex]

/-- There is one list of the failures. -/
theorem FailuresOf.unique {others : List BatchFailure} (h : FailuresOf queries outcome failures)
    (hothers : FailuresOf queries outcome others) : failures = others := by
  have hnodup : ∀ {l : List BatchFailure}, FailuresOf queries outcome l → l.Nodup :=
    fun hl => hl.ordered.imp fun hlt heq => Nat.ne_of_lt hlt (congrArg BatchFailure.index heq)
  have hperm : failures ~ others := by
    rw [List.perm_ext_iff_of_nodup (hnodup h) (hnodup hothers)]
    exact fun failure => (h.mem_iff failure).trans (hothers.mem_iff failure).symm
  refine hperm.eq_of_pairwise (fun a b _ _ hab hba => ?_) h.ordered hothers.ordered
  omega

/-- Either every query has rows or one of them failed. -/
theorem rowsOf_or_exists_error (queries : List Query) (outcome : Nat → Outcome) :
    (∃ rows, RowsOf queries outcome rows) ∨
      ∃ index < queries.length, ∃ cause, outcome index = .error cause := by
  by_cases hfailed : ∃ index < queries.length, ∃ cause, outcome index = .error cause
  · exact .inr hfailed
  · left
    refine ⟨(List.range queries.length).map fun index => (outcome index).toOption.getD [], ?_⟩
    rw [RowsOf, List.map_map]
    apply List.map_congr_left
    intro index hindex
    cases houtcome : outcome index with
    | ok rows => simp [houtcome, Except.toOption]
    | error cause => exact absurd ⟨index, List.mem_range.mp hindex, cause, houtcome⟩ hfailed

/-- No query of a batch that has rows failed. -/
theorem RowsOf.exists_ok (h : RowsOf queries outcome rows) {index : Nat}
    (hindex : index < queries.length) : ∃ found, outcome index = .ok found := by
  have hmem : outcome index ∈ rows.map Except.ok := by
    rw [h]
    exact List.mem_map_of_mem (List.mem_range.mpr hindex)
  obtain ⟨found, _, hfound⟩ := List.mem_map.mp hmem
  exact ⟨found, hfound.symm⟩

/-- The failure of a query of the batch, if it failed. -/
def failure? (outcome : Nat → Outcome) : Query × Nat → Option BatchFailure
  | (query, index) =>
    match outcome index with
    | .error cause => some ⟨index, query, cause⟩
    | .ok _ => none

/-- A failure has the index, the query and the cause of what failed. -/
theorem failure?_eq_some_iff {entry : Query × Nat} {failure : BatchFailure} :
    failure? outcome entry = some failure ↔
      entry = (failure.query, failure.index) ∧ outcome failure.index = .error failure.cause := by
  obtain ⟨query, index⟩ := entry
  obtain ⟨at_, query', cause⟩ := failure
  rw [failure?]
  constructor
  · intro h
    split at h
    case h_1 houtcome =>
      simp only [Option.some.injEq, BatchFailure.mk.injEq] at h
      obtain ⟨rfl, rfl, rfl⟩ := h
      exact ⟨rfl, houtcome⟩
    case h_2 => cases h
  · rintro ⟨hentry, houtcome⟩
    obtain ⟨rfl, rfl⟩ := Prod.mk.inj hentry
    simp only [houtcome]

/-- Queries are reported by the outcomes under their indexes. -/
theorem batchFailures_eq (h : Flight.Course outcome (.ofQueries queries) events) :
    batchFailures queries (completionsOf events) =
      queries.zipIdx.filterMap (failure? outcome) := by
  apply List.filterMap_congr
  rintro ⟨query, index⟩ hentry
  have hindex : index < queries.length := List.snd_lt_of_mem_zipIdx hentry
  simp only [h.outcomeAt?_eq hindex, failure?]
  cases outcome index <;> rfl

/-- The failures that are reported are those of the queries that failed. -/
theorem failuresOf_batchFailures (h : Flight.Course outcome (.ofQueries queries) events) :
    FailuresOf queries outcome (batchFailures queries (completionsOf events)) := by
  rw [batchFailures_eq h]
  constructor
  case ordered =>
    have hindexes : queries.zipIdx.Pairwise fun a b => a.2 < b.2 := by
      rw [← List.pairwise_map, List.zipIdx_map_snd]
      exact List.pairwise_lt_range' 1
    refine hindexes.filterMap _ fun a b hlt failure hfailure failure' hfailure' => ?_
    rw [(failure?_eq_some_iff.mp hfailure).1, (failure?_eq_some_iff.mp hfailure').1] at hlt
    exact hlt
  case mem_iff =>
    intro failure
    simp only [List.mem_filterMap, failure?_eq_some_iff]
    constructor
    · rintro ⟨_, hentry, rfl, houtcome⟩
      exact ⟨List.mk_mem_zipIdx_iff_getElem?.mp hentry, houtcome⟩
    · rintro ⟨hquery, houtcome⟩
      exact ⟨_, List.mk_mem_zipIdx_iff_getElem?.mpr hquery, rfl, houtcome⟩

/-- The rows that are returned are those of the queries. -/
theorem batchRows_eq (h : Flight.Course outcome (.ofQueries queries) events)
    (hrows : RowsOf queries outcome rows) :
    batchRows queries (completionsOf events) = rows := by
  apply List.map_injective_iff.mpr (fun _ _ => Except.ok.inj)
  calc (batchRows queries (completionsOf events)).map Except.ok
    _ = queries.zipIdx.map fun entry => outcome entry.2 := by
      rw [batchRows, List.map_filterMap]
      rw [List.filterMap_eq_map_iff_forall_eq_some]
      rintro ⟨query, index⟩ hentry
      have hindex : index < queries.length := List.snd_lt_of_mem_zipIdx hentry
      obtain ⟨found, hfound⟩ := hrows.exists_ok hindex
      simp only [h.outcomeAt?_eq hindex, hfound, Option.map_some]
    _ = (List.range queries.length).map outcome := by
      rw [List.range_eq_range', ← List.zipIdx_map_snd 0 queries, List.map_map]
      rfl
    _ = rows.map Except.ok := hrows.symm

end Reports

/-- Something that a server is asked for, or that happens while queries are in flight. -/
inductive ServerEvent where
  | ran (access : Access) (query : Query)
  | began
  | inFlight (event : FlightEvent)
  | committed
  | rolledBack

/-- The query of a dispatch that starts with an event, and its index. -/
def ServerEvent.started? : ServerEvent → Option (Query × Nat)
  | .inFlight event => event.started?
  | _ => none

/-- A database that replies as it likes, and lets each dispatch take a course that it chooses. -/
structure Server where
  /-- The reply to a query that is run by itself. -/
  alone : Access → Query → Outcome
  begin : Except DatabaseError Unit
  /-- The outcomes of the queries of a dispatch. -/
  outcome : Nat → Outcome
  flight : List Query → List FlightEvent
  course (queries : List Query) : Flight.Course outcome (.ofQueries queries) (flight queries)
  commit : Except DatabaseError Unit
  rollback : Except DatabaseError Unit

namespace Server

/-- Adds to what has happened. -/
def note (events : List ServerEvent) : StateM (List ServerEvent) Unit :=
  modify fun before => before ++ events

/-- The server as a database. The state is all that has happened. -/
def database (server : Server) : Database (List ServerEvent) where
  run access query := do
    note [.ran access query]
    return server.alone access query
  begin := do
    note [.began]
    return server.begin
  dispatch queries := do
    note ((server.flight queries).map .inFlight)
    return completionsOf (server.flight queries)
  commit := do
    note [.committed]
    return server.commit
  rollback := do
    note [.rolledBack]
    return server.rollback

/-- What a batch returns, and all that happens in its course. -/
def batch (server : Server) (queries : List Query) :
    Except MapperError (List (List Row)) × List ServerEvent :=
  (Mapper.batch queries).answeredBy server.database []

/-- All that happens from the opening of a transaction, in which queries are run, to its end. -/
def transaction (server : Server) (queries : List Query) (ending : ServerEvent) :
    List ServerEvent :=
  .began :: (server.flight queries).map .inFlight ++ [ending]

/-- A server that starts all queries of a dispatch, which then complete in a given order. -/
def completingIn (order : List (Query × Nat) → List (Query × Nat))
    (horder : ∀ entries, order entries ~ entries) (outcome : Nat → Outcome) : Server where
  alone _ _ := .ok []
  begin := .ok ()
  outcome := outcome
  flight queries :=
    (queries.zipIdx.map fun (query, index) => .started index query) ++
      (order queries.zipIdx).map fun (_, index) => .completed index (outcome index)
  course queries := by
    apply Flight.course_of_starts
    rw [List.append_nil]
    exact Flight.course_of_perm ((horder _).trans (List.reverse_perm _).symm)
  commit := .ok ()
  rollback := .ok ()

variable {server : Server} {queries : List Query}

/-- What the server does when it is asked to open a transaction. -/
theorem answeredBy_begin {α : Type} (next : Except DatabaseError Unit → Dialogue α)
    (before : List ServerEvent) :
    (Dialogue.begin next).answeredBy server.database before =
      (next server.begin).answeredBy server.database (before ++ [.began]) := rfl

/-- What the server does with queries that are dispatched. -/
theorem answeredBy_dispatch {α : Type} (next : List Completion → Dialogue α)
    (before : List ServerEvent) :
    (Dialogue.dispatch queries next).answeredBy server.database before =
      (next (completionsOf (server.flight queries))).answeredBy server.database
        (before ++ (server.flight queries).map .inFlight) := rfl

/-- What the server does when it is asked to commit. -/
theorem answeredBy_commit {α : Type} (next : Except DatabaseError Unit → Dialogue α)
    (before : List ServerEvent) :
    (Dialogue.commit next).answeredBy server.database before =
      (next server.commit).answeredBy server.database (before ++ [.committed]) := rfl

/-- What the server does when it is asked to roll back. -/
theorem answeredBy_rollback {α : Type} (next : Except DatabaseError Unit → Dialogue α)
    (before : List ServerEvent) :
    (Dialogue.rollback next).answeredBy server.database before =
      (next server.rollback).answeredBy server.database (before ++ [.rolledBack]) := rfl

/-- Nothing follows an opening that fails. -/
theorem batch_of_refused {cause : DatabaseError} (h : server.begin = .error cause) :
    server.batch queries = (.error (.transaction cause), [.began]) := by
  rw [batch, Mapper.batch, answeredBy_begin, h]
  rfl

/-- Without failures the transaction is committed. -/
theorem batch_of_rowsOf {rows : List (List Row)} (hbegin : server.begin = .ok ())
    (hrows : RowsOf queries server.outcome rows) :
    server.batch queries =
      ((server.commit.map fun () => rows).mapError .transaction,
        server.transaction queries .committed) := by
  have hcourse := server.course queries
  have hnone : batchFailures queries (completionsOf (server.flight queries)) = [] := by
    rw [List.eq_nil_iff_forall_not_mem]
    intro failure hfailure
    obtain ⟨hquery, hcause⟩ := ((failuresOf_batchFailures hcourse).mem_iff failure).mp hfailure
    obtain ⟨found, hfound⟩ := hrows.exists_ok (List.getElem?_eq_some_iff.mp hquery).1
    rw [hfound] at hcause
    cases hcause
  simp only [batch, Mapper.batch, answeredBy_begin, hbegin, answeredBy_dispatch, hnone,
    answeredBy_commit, batchRows_eq hcourse hrows]
  cases server.commit <;> rfl

/-- With a failure the transaction is rolled back. -/
theorem batch_of_error (hbegin : server.begin = .ok ()) {index : Nat} {cause : DatabaseError}
    (hindex : index < queries.length) (hcause : server.outcome index = .error cause) :
    ∃ failures, FailuresOf queries server.outcome failures ∧
      server.batch queries =
        (.error (.batch failures), server.transaction queries .rolledBack) := by
  have hfailures := failuresOf_batchFailures (server.course queries)
  have hmem : (⟨index, queries[index], cause⟩ : BatchFailure) ∈
      batchFailures queries (completionsOf (server.flight queries)) :=
    (hfailures.mem_iff _).mpr ⟨List.getElem?_eq_getElem hindex, hcause⟩
  refine ⟨_, hfailures, ?_⟩
  simp only [batch, Mapper.batch, answeredBy_begin, hbegin, answeredBy_dispatch]
  split
  case h_1 hnone =>
    rw [hnone] at hmem
    cases hmem
  case h_2 =>
    rw [answeredBy_rollback]
    rfl

/-- Every query is run once in a transaction, whatever becomes of it. -/
theorem starts_transaction (server : Server) (queries : List Query) {ending : ServerEvent}
    (hending : ending.started? = none) :
    (server.transaction queries ending).filterMap ServerEvent.started? ~ queries.zipIdx := by
  have hflight : (server.transaction queries ending).filterMap ServerEvent.started? =
      startsOf (server.flight queries) := by
    have hopened : ServerEvent.began.started? = none := rfl
    rw [transaction, List.cons_append, List.filterMap_cons_none hopened, List.filterMap_append,
      List.filterMap_map, List.filterMap_cons_none hending, List.filterMap_nil, List.append_nil]
    rfl
  rw [hflight]
  exact (server.course queries).starts_perm

end Server

/-- What a batch on a server has to return, and what has to happen. -/
structure AllOrNothing (server : Server) (queries : List Query)
    (result : Except MapperError (List (List Row))) (events : List ServerEvent) : Prop where
  /-- Nothing is run if the transaction cannot be opened. -/
  refused (cause : DatabaseError) : server.begin = .error cause →
    result = .error (.transaction cause) ∧ events = [.began]
  /-- Every query is run once, also when others fail. -/
  attempted : server.begin = .ok () → events.filterMap ServerEvent.started? ~ queries.zipIdx
  /-- If all queries succeed there is one commit, and their rows are returned unless it fails. -/
  committed (rows : List (List Row)) : server.begin = .ok () →
    RowsOf queries server.outcome rows →
      result = (server.commit.map fun () => rows).mapError .transaction ∧
        events = server.transaction queries .committed
  /-- If a query fails there is one rollback, and all failures are returned. -/
  rolledBack (index : Nat) (cause : DatabaseError) : server.begin = .ok () →
    index < queries.length → server.outcome index = .error cause →
      (∃ failures, FailuresOf queries server.outcome failures ∧
        result = .error (.batch failures)) ∧
        events = server.transaction queries .rolledBack

section AllOrNothing

variable {server other : Server} {queries : List Query}
  {result result' : Except MapperError (List (List Row))} {events events' : List ServerEvent}

/-- What a batch returns depends on the opening, the outcomes and the commit only. -/
theorem AllOrNothing.result_eq (h : AllOrNothing server queries result events)
    (h' : AllOrNothing other queries result' events')
    (hbegin : other.begin = server.begin) (hcommit : other.commit = server.commit)
    (houtcome : ∀ index < queries.length, other.outcome index = server.outcome index) :
    result' = result := by
  cases hopened : server.begin with
  | error cause =>
    rw [(h.refused cause hopened).1, (h'.refused cause (hbegin.trans hopened)).1]
  | ok =>
    have hopened' : other.begin = .ok () := hbegin.trans hopened
    obtain ⟨rows, hrows⟩ | ⟨index, hindex, cause, hcause⟩ :=
      rowsOf_or_exists_error queries server.outcome
    · have hrows' : RowsOf queries other.outcome rows := by
        rw [RowsOf, hrows]
        exact List.map_congr_left fun index hindex =>
          (houtcome index (List.mem_range.mp hindex)).symm
      rw [(h.committed rows hopened hrows).1, (h'.committed rows hopened' hrows').1, hcommit]
    · have hcause' : other.outcome index = .error cause := (houtcome index hindex).trans hcause
      obtain ⟨failures, hfailures, hresult⟩ := (h.rolledBack index cause hopened hindex hcause).1
      obtain ⟨failures', hfailures', hresult'⟩ :=
        (h'.rolledBack index cause hopened' hindex hcause').1
      have hsame : failures' = failures := hfailures'.unique (hfailures.congr houtcome)
      rw [hresult, hresult', hsame]

/-- A batch is all or nothing on every server. -/
theorem Server.allOrNothing_batch (server : Server) (queries : List Query) :
    AllOrNothing server queries (server.batch queries).1 (server.batch queries).2 := by
  constructor
  case refused =>
    intro cause hbegin
    rw [batch_of_refused hbegin]
    exact ⟨rfl, rfl⟩
  case attempted =>
    intro hbegin
    obtain ⟨rows, hrows⟩ | ⟨index, hindex, cause, hcause⟩ :=
      rowsOf_or_exists_error queries server.outcome
    · rw [batch_of_rowsOf hbegin hrows]
      exact server.starts_transaction queries rfl
    · obtain ⟨failures, _, hrun⟩ := batch_of_error hbegin hindex hcause
      rw [hrun]
      exact server.starts_transaction queries rfl
  case committed =>
    intro rows hbegin hrows
    rw [batch_of_rowsOf hbegin hrows]
    exact ⟨rfl, rfl⟩
  case rolledBack =>
    intro index cause hbegin hindex hcause
    obtain ⟨failures, hfailures, hrun⟩ := batch_of_error hbegin hindex hcause
    rw [hrun]
    exact ⟨⟨failures, hfailures, rfl⟩, rfl⟩

end AllOrNothing

/-- Of a batch either all is committed or nothing is: every query is run once in a transaction that
was opened, which then ends in one commit if all of them succeeded, and else in one rollback and the
failures. What is returned does not depend on the order in which the queries complete. -/
theorem batch_all_or_nothing (server : Server) (queries : List Query) :
    AllOrNothing server queries (server.batch queries).1 (server.batch queries).2 ∧
      ∀ other : Server, other.begin = server.begin → other.commit = server.commit →
        (∀ index < queries.length, other.outcome index = server.outcome index) →
          (other.batch queries).1 = (server.batch queries).1 :=
  ⟨server.allOrNothing_batch queries, fun other =>
    (server.allOrNothing_batch queries).result_eq (other.allOrNothing_batch queries)⟩

/-- Two companies, and between them something that is no query. -/
def companyQueries : List Query :=
  [⟨"CREATE (a:Company)", []⟩, ⟨"INVALID QUERY", []⟩, ⟨"CREATE (b:Company)", []⟩]

/-- The failure of what is no query. -/
def syntaxError : DatabaseError :=
  ⟨some "Neo.ClientError.Statement.SyntaxError", "Invalid input"⟩

/-- Only the second query of a dispatch fails. -/
def secondFails : Nat → Outcome
  | 1 => .error syntaxError
  | _ => .ok []

/-- Queries complete in the order of the batch. -/
def firstFirst : Server := .completingIn id List.Perm.refl secondFails

/-- Queries complete in the opposite order, and the rollback fails too. -/
def lastFirst : Server :=
  { Server.completingIn List.reverse List.reverse_perm secondFails with
    rollback := .error syntaxError }

/-- A query that fails between two others takes them with it, whichever completes first. -/
theorem companyQueries_all_or_nothing :
    firstFirst.begin = .ok () ∧ firstFirst.outcome 1 = .error syntaxError ∧
      lastFirst.begin = firstFirst.begin ∧ lastFirst.commit = firstFirst.commit ∧
      AllOrNothing firstFirst companyQueries (firstFirst.batch companyQueries).1
        (firstFirst.batch companyQueries).2 ∧
      (firstFirst.batch companyQueries).2 =
        firstFirst.transaction companyQueries .rolledBack ∧
      (lastFirst.batch companyQueries).1 = (firstFirst.batch companyQueries).1 := by
  obtain ⟨hall, hsame⟩ := batch_all_or_nothing firstFirst companyQueries
  have hrolledBack := hall.rolledBack 1 syntaxError rfl (by decide) rfl
  exact ⟨rfl, rfl, rfl, rfl, hall, hrolledBack.2, hsame lastFirst rfl rfl fun _ _ => rfl⟩

example : (lastFirst.batch companyQueries).1 =
    .error (.batch [⟨1, ⟨"INVALID QUERY", []⟩, syntaxError⟩]) := rfl

end GraphMapper
