import GraphMapper.Mapper.Entities
import GraphMapper.Mapper.Links
import GraphMapper.Proofs.Cascade.Rendering
import GraphMapper.Proofs.Mapper.Preparing
import GraphMapper.Proofs.Write.Likeness
import GraphMapper.Script

/-!
# What reaches the database

Twelve operations send one query at most (`Operation`). Whatever makes one of them refuse its
arguments is found before the query is sent, and what is found in the reply is reported by errors of
its own. So an operation that fails with any other error has made no call to the database, and an
operation that does not has made exactly one, by the query that a failure of the database is
reported with (`rejected_untouched`).

No operation drafts a query with steps in an order that a query cannot have: a statement that is
open and has a path can be gone on with (`Draft.Ready`), and every query but that of a payload
begins with a path.
-/

namespace GraphMapper

open Cypher

/-! ## Drafts that can be gone on with -/

namespace Cypher

/-- Whether a step leaves the open statement a path. -/
def Step.goesOn : Step → Bool
  | .carry _ => false
  | _ => true

/-- A statement is open, and has a path. -/
def Draft.Ready (draft : Draft) : Prop :=
  ∃ s, draft.current = some s ∧ s.paths ≠ []

section

variable {draft : Draft}

/-- The open statement may be changed if its path is kept. -/
theorem Draft.Ready.modify (h : draft.Ready) {change : Statement → Statement}
    (hchange : ∀ s, s.paths ≠ [] → (change s).paths ≠ []) :
    ∃ after, draft.modify change = .ok after ∧ after.Ready := by
  obtain ⟨s, hcurrent, hpaths⟩ := h
  exact ⟨{ draft with current := some (change s) }, by rw [Draft.modify, hcurrent], change s, rfl,
    hchange s hpaths⟩

/-- The open statement may be changed by a value if its path is kept. -/
theorem Draft.Ready.modifyWith (h : draft.Ready) (base : String) (value : Value)
    {change : String → Statement → Statement}
    (hchange : ∀ name s, s.paths ≠ [] → (change name s).paths ≠ []) :
    ∃ after, draft.modifyWith base value change = .ok after ∧ after.Ready := by
  obtain ⟨s, hcurrent, hpaths⟩ := h
  have hbound : (draft.addParam base value).2.Ready := ⟨s, hcurrent, hpaths⟩
  rw [Draft.modifyWith, hcurrent]
  exact hbound.modify (hchange _)

/-- The last path of the open statement may be extended. -/
theorem Draft.Ready.extendPath (h : draft.Ready) (element : PathElement) :
    ∃ after, draft.extendPath element = .ok after ∧ after.Ready := by
  obtain ⟨s, hcurrent, hpaths⟩ := h
  obtain ⟨path, hlast⟩ := Option.isSome_iff_exists.mp (List.getLast?_isSome.mpr hpaths)
  simp only [Draft.extendPath, hcurrent, hlast]
  exact ⟨_, rfl, _, rfl, by simp⟩

/-- The properties of a node pattern are bound without a change to the statements. -/
theorem Draft.Ready.nodePattern (h : draft.Ready) (var : String) (labels : List String)
    (properties : Bag) : (draft.nodePattern var labels properties).2.Ready := by
  obtain ⟨s, hcurrent, hpaths⟩ := h
  exact ⟨s, (addProperties_keeps draft var properties).2.trans hcurrent, hpaths⟩

/-- A draft that can be gone on with can be gone on with after one more step. -/
theorem Draft.Ready.step (h : draft.Ready) {step : Step} (hstep : step.goesOn = true) :
    ∃ after, draft.step step = .ok after ∧ after.Ready := by
  cases step with
  | carry => cases hstep
  | param base value =>
    obtain ⟨s, hcurrent, hpaths⟩ := h
    exact ⟨_, rfl, s, hcurrent, hpaths⟩
  | start verb var labels properties => exact ⟨_, rfl, _, rfl, by simp⟩
  | andNode var labels => exact (h.nodePattern var labels []).modify fun s _ => by simp
  | relationship => exact h.extendPath _
  | «to» var labels properties => exact (h.nodePattern var labels properties).extendPath _
  | whereCompare | whereId | set | setMerge | onCreateSet | onMatchSet =>
    rw [Draft.step]
    exact h.modifyWith _ _ fun _ _ hpaths => hpaths
  | whereBetween expression floor ceiling =>
    obtain ⟨s, hcurrent, hpaths⟩ := h
    have hbound : (draft.addParam ("where_" ++ expression ++ "_floor") floor).2.Ready :=
      ⟨s, hcurrent, hpaths⟩
    simp only [Draft.step, hcurrent]
    exact hbound.modifyWith _ _ fun _ _ hpaths => hpaths
  | _ => exact h.modify fun _ hpaths => hpaths

/-- Steps that begin a path and then go on can be taken. -/
theorem exists_draft_of_start (verb : Verb) (var : String) (labels : List String)
    (properties : Bag) {steps : List Step} (h : steps.all Step.goesOn = true) :
    ∃ draft, Draft.run {} (.start verb var labels properties :: steps) = .ok draft := by
  have hstart : ∃ first, Draft.step {} (.start verb var labels properties) = .ok first ∧
      first.Ready := ⟨_, rfl, _, rfl, by simp⟩
  obtain ⟨first, hfirst, hready⟩ := hstart
  obtain ⟨after, hafter, -⟩ := foldlM_keeps
    (fun step hstep _ hready => Draft.Ready.step hready (List.all_eq_true.mp h step hstep)) hready
  exact ⟨after, run_cons_eq_ok hfirst hafter⟩

end

end Cypher

/-! ## Errors before and after a query is sent -/

namespace MapperError

/-- Errors that are found in the arguments of an operation. -/
def IsRefusal : MapperError → Prop
  | .schema _ | .compile _ | .validation _ | .relationshipNotFound _ _ => True
  | _ => False

/-- Errors that are found in the rows of a reply. -/
def IsMisread : MapperError → Prop
  | .hydration _ | .emptyResult _ => True
  | _ => False

/-- Errors that are found in a reply. -/
def IsReply : MapperError → Prop
  | .execution _ _ | .hydration _ | .emptyResult _ => True
  | _ => False

/-- No error is found both in the arguments and in a reply. -/
theorem IsRefusal.not_isReply {e : MapperError} (h : e.IsRefusal) : ¬ e.IsReply := by
  cases e <;> simp_all [IsRefusal, IsReply]

/-- What is found in the rows is found in a reply. -/
theorem IsMisread.isReply {e : MapperError} (h : e.IsMisread) : e.IsReply := by
  cases e <;> simp_all [IsMisread, IsReply]

end MapperError

open MapperError (IsRefusal IsMisread IsReply)

namespace Preparing

variable {α β : Type} {x : Preparing α} {good : α → Prop} {final : β → Prop}

/-- From any supply the computation comes to a value of which `good` holds, or to a refusal. -/
def EndsOrRefuses (good : α → Prop) (x : Preparing α) : Prop :=
  ∀ supply, Ends good IsRefusal (x.run.run supply).1

/-- A computation that may refuse, and says nothing of its values. -/
abbrev MayRefuse (x : Preparing α) : Prop := EndsOrRefuses (fun _ => True) x

/-- What takes nothing from the supply refuses nothing. -/
theorem endsOrRefuses_pure {a : α} (h : good a) : EndsOrRefuses good (pure a) :=
  fun _ => h

/-- An attempt refuses what it refuses by itself. -/
theorem endsOrRefuses_ofExcept {attempt : Except MapperError α} (h : Ends good IsRefusal attempt) :
    EndsOrRefuses good (ofExcept attempt) := by
  intro supply
  cases attempt <;> exact h

/-- A validation may refuse. -/
theorem mayRefuse_ofValidation (checked : Except ValidationError α) :
    MayRefuse (ofValidation checked) :=
  endsOrRefuses_ofExcept (Ends.mapError fun _ => trivial)

/-- Two computations in a row end as the second does, or refuse. -/
theorem EndsOrRefuses.bind (h : EndsOrRefuses good x) {f : α → Preparing β}
    (hnext : ∀ a, good a → EndsOrRefuses final (f a)) : EndsOrRefuses final (x >>= f) := by
  intro supply
  have hx := h supply
  rw [ExceptT.run_bind, StateT.run_bind]
  cases hrun : x.run.run supply with
  | mk result rest =>
    rw [hrun] at hx
    cases result with
    | error e => exact hx
    | ok a => exact hnext a hx rest

/-- To name fields from further out leaves a refusal a refusal. -/
theorem EndsOrRefuses.under (h : EndsOrRefuses good x) (path : String) :
    EndsOrRefuses good (x.under path) := by
  intro supply
  have hx := h supply
  rw [run_under]
  cases hresult : (x.run.run supply).1 with
  | ok a => rwa [hresult] at hx
  | error e =>
    rw [hresult] at hx
    cases e <;> exact hx

/-- Computations on the items of a list may refuse if each of them may. -/
theorem mayRefuse_mapM {f : α → Preparing β} {items : List α} (h : ∀ item, MayRefuse (f item)) :
    MayRefuse (items.mapM f) := by
  induction items with
  | nil => exact endsOrRefuses_pure trivial
  | cons item rest ih =>
    rw [List.mapM_cons]
    exact (h item).bind fun _ _ => ih.bind fun _ _ => endsOrRefuses_pure trivial

/-- Computations on a state, one after the other, may refuse if each of them may. -/
theorem mayRefuse_foldlM {step : β → α → Preparing β} {items : List α}
    (h : ∀ state item, MayRefuse (step state item)) (state : β) :
    MayRefuse (items.foldlM step state) := by
  induction items generalizing state with
  | nil => exact endsOrRefuses_pure trivial
  | cons item rest ih =>
    rw [List.foldlM_cons]
    exact (h state item).bind fun _ _ => ih _

end Preparing

open Preparing

/-! ## The preparation of a payload -/

section

variable {prepareFar : Bag → Preparing Bag}

/-- The properties of a bag may be refused. -/
theorem mayRefuse_prepareProperties (model : EntityType) (bag : Bag) :
    MayRefuse (prepareProperties model bag) := by
  have hfilled : MayRefuse (liftM (fillDefaults model bag) : Preparing Bag) := fun _ => trivial
  exact hfilled.bind fun _ _ => mayRefuse_ofValidation _

/-- An item may be refused if far bags may. -/
theorem mayRefuse_prepareItem (hfar : ∀ far, MayRefuse (prepareFar far)) (rel : Relationship)
    (item : Value) : MayRefuse (prepareItem prepareFar rel item) := by
  cases item with
  | map entries =>
    rw [prepareItem]
    split
    · refine (mayRefuse_ofValidation _).bind fun kept _ => ?_
      split
      · exact ((hfar _).under _).bind fun _ _ => endsOrRefuses_pure trivial
      · exact endsOrRefuses_pure trivial
    · exact (hfar entries).bind fun _ _ => endsOrRefuses_pure trivial
  | _ => exact endsOrRefuses_pure trivial

/-- What is under the key of a relationship may be refused if far bags may. -/
theorem mayRefuse_prepareRelated (hfar : ∀ far, MayRefuse (prepareFar far)) (rel : Relationship)
    (value : Value) : MayRefuse (prepareRelated prepareFar rel value) := by
  unfold prepareRelated
  split
  · next items =>
    have hlisted (item : Value × Nat) : MayRefuse (prepareListed prepareFar rel item) :=
      (mayRefuse_prepareItem hfar rel item.1).under _
    exact (mayRefuse_mapM hlisted).bind fun _ _ => endsOrRefuses_pure trivial
  · exact (mayRefuse_prepareItem hfar rel value).under _

/-- A payload may be refused for its fields alone. -/
theorem mayRefuse_prepare (registry : Registry) (levels : Nat) (model : EntityType) (bag : Bag) :
    MayRefuse (prepare registry levels model bag) := by
  induction levels generalizing model bag with
  | zero => exact mayRefuse_prepareProperties model bag
  | succ levels ih =>
    refine (mayRefuse_prepareProperties model bag).bind fun checked _ =>
      mayRefuse_foldlM (fun bag rel => ?_) checked
    unfold prepareUnder
    split
    · exact (mayRefuse_prepareRelated (ih _) rel _).bind fun _ _ => endsOrRefuses_pure trivial
    · exact endsOrRefuses_pure trivial

end

/-! ## Requests -/

/-- The request asks for this access, and of its reply only the rows can be at fault. -/
structure Request.IsProper {α : Type} (access : Access) (request : Request α) : Prop where
  access : request.access = access
  answer : ∀ rows, Ends (fun _ => True) IsMisread (request.answer rows)

/-- The attempt comes to a proper request, or is refused. -/
abbrev Requests {α : Type} (access : Access) (attempt : Except MapperError (Request α)) : Prop :=
  Ends (Request.IsProper access) IsRefusal attempt

namespace Mapper

variable (mapper : Mapper)

/-- A type that is not registered is refused. -/
theorem ends_model (name : String) : Ends (fun _ => True) IsRefusal (mapper.model name) :=
  Ends.mapError fun _ => trivial

/-- An entity that cannot be returned is refused. -/
theorem ends_returned (var : String) (model : EntityType) :
    Ends (fun _ => True) IsRefusal (mapper.returned var model) :=
  Ends.mapError fun _ => trivial

/-- Steps that can be taken give a query. -/
theorem ends_queryOf {steps : List Step} (h : ∃ draft, Draft.run {} steps = .ok draft) :
    Ends (fun _ => True) IsRefusal (queryOf steps) := by
  obtain ⟨draft, hdraft⟩ := h
  rw [queryOf, hdraft]
  trivial

/-- A node that is not read is one that the rows do not have. -/
theorem ends_firstNode? (var : String) (model : EntityType) (rows : List Row) :
    Ends (fun _ => True) IsMisread (mapper.firstNode? var model rows) :=
  Ends.mapError fun _ => trivial

/-- A node that is not there is missing in the rows. -/
theorem ends_firstNode (var : String) (model : EntityType) (title : String) (rows : List Row) :
    Ends (fun _ => True) IsMisread (mapper.firstNode var model title rows) := by
  refine (mapper.ends_firstNode? var model rows).bind fun node _ => ?_
  cases node <;> exact trivial

/-- A payload is requested to be written, or refused. -/
theorem requests_write (mode : WriteMode) (name : String) (payload : Bag) :
    EndsOrRefuses (Request.IsProper .write) (mapper.writeRequest mode name payload) := by
  refine (endsOrRefuses_ofExcept (mapper.ends_model name)).bind fun model _ => ?_
  refine (mayRefuse_prepare _ _ _ _).bind fun prepared _ => ?_
  have hquery : Ends (fun _ => True) IsRefusal (mapper.writeQuery mode model prepared) := by
    have hplan : Ends (fun _ => True) IsRefusal ((WritePlan.ofPayload mapper.registry
        mapper.config.writeLimit mode rootVar model prepared).mapError .compile) :=
      Ends.mapError fun _ => trivial
    refine hplan.bind fun plan _ => (mapper.ends_returned rootVar model).bind fun expression _ =>
      ends_queryOf ?_
    obtain ⟨draft, hdraft⟩ := plan.takable_stepsIn [] {}
    exact ⟨_, run_append_eq_ok hdraft rfl⟩
  exact (endsOrRefuses_ofExcept hquery).bind fun query _ =>
    endsOrRefuses_pure ⟨rfl, mapper.ends_firstNode rootVar model _⟩

/-- An update is requested, or refused. -/
theorem requests_update (node : Node) (payload : Bag) :
    Requests .write (mapper.updateRequest node payload) := by
  have hchecked : Ends (fun _ => True) IsRefusal
      ((validate .update node.model payload).mapError .validation) := Ends.mapError fun _ => trivial
  refine hchecked.bind fun checked _ => (mapper.ends_returned _ _).bind fun expression _ =>
    (ends_queryOf ?_).bind fun query _ => ⟨rfl, mapper.ends_firstNode _ _ _⟩
  exact exists_draft_of_start _ _ _ _ (by simp [Step.goesOn, Step.setProperties])

/-- A delete is requested, or refused. -/
theorem requests_delete (levels : Nat) (model : EntityType) (identity : Identity) :
    Requests .write ((mapper.deleteQuery levels model identity).map effect) := by
  have hplan : Ends (fun _ => True) IsRefusal
      ((CascadePlan.ofModel mapper.registry levels rootVar (some model)).mapError .compile) :=
    Ends.mapError fun _ => trivial
  have hquery : Ends (fun _ => True) IsRefusal (mapper.deleteQuery levels model identity) :=
    hplan.bind fun plan _ => ends_queryOf
      ((exists_draft_of_steps plan identity).imp fun _ hdraft => hdraft.1)
  exact hquery.map fun query _ => ⟨rfl, fun _ => trivial⟩

/-- The delete of all entities of a type is requested, or refused. -/
theorem requests_deleteAll (name : String) :
    Requests .write ((mapper.deleteAllQuery name).map effect) := by
  have hquery : Ends (fun _ => True) IsRefusal (mapper.deleteAllQuery name) :=
    (mapper.ends_model name).bind fun model _ =>
      ends_queryOf (exists_draft_of_start _ _ _ _ (by simp [Step.goesOn]))
  exact hquery.map fun query _ => ⟨rfl, fun _ => trivial⟩

/-- A connection is requested, or refused. -/
theorem requests_relate (mode : RelateMode) (subject other : Node) (name : String)
    (payload : Bag) : Requests .write (mapper.relateRequest mode subject other name payload) := by
  unfold relateRequest
  split
  · exact trivial
  · next rel _ =>
    have hkept : Ends (fun _ => True) IsRefusal
        ((relationshipBag rel payload).mapError .validation) := Ends.mapError fun _ => trivial
    refine hkept.bind fun kept _ => (mapper.ends_returned _ _).bind fun expression _ =>
      (ends_queryOf ?_).bind fun query _ => ⟨rfl, fun rows => ?_⟩
    · exact exists_draft_of_start _ _ _ _ (by simp [Step.goesOn, Step.setProperties])
    · refine (mapper.ends_firstNode _ _ _ rows).bind fun far _ => ?_
      unfold relatedLink
      split <;> exact trivial

/-- The cut of all connections is requested. -/
theorem requests_detach (subject other : Node) :
    Requests .write ((queryOf (detachSteps subject other)).map
      fun query => (⟨.write, query, fun _ => .ok ()⟩ : Request Unit)) := by
  have hquery : Ends (fun _ => True) IsRefusal (queryOf (detachSteps subject other)) :=
    ends_queryOf (exists_draft_of_start _ _ _ _ (by simp [Step.goesOn]))
  exact hquery.map fun query _ => ⟨rfl, fun _ => trivial⟩

/-- The first entity that meets conditions is requested, or refused. -/
theorem requests_find (name : String) {conditions : List Step}
    (h : conditions.all Step.goesOn = true) :
    Requests .read (mapper.findRequest name conditions) := by
  refine (mapper.ends_model name).bind fun model _ =>
    (mapper.ends_returned _ _).bind fun expression _ =>
    (ends_queryOf ?_).bind fun query _ => ⟨rfl, mapper.ends_firstNode? _ _⟩
  exact exists_draft_of_start _ _ _ _ (by simp [h, Step.goesOn])

/-- A selection is requested, or refused. -/
theorem requests_all (name : String) (selection : Selection) :
    Requests .read (mapper.allRequest name selection) := by
  refine (mapper.ends_model name).bind fun model _ =>
    (mapper.ends_returned _ _).bind fun expression _ =>
    (ends_queryOf ?_).bind fun query _ => ⟨rfl, fun rows => Ends.mapError fun _ => trivial⟩
  simp only [List.cons_append]
  refine exists_draft_of_start _ _ _ _ ?_
  cases selection.skip <;> cases selection.limit <;>
    simp [Step.goesOn, Step.whereProperties, Function.comp_def]

end Mapper

/-! ## Operations on a database -/

/-- The operations that send one query at most, with their arguments, by what they come to. -/
inductive Operation : Type → Type
  | create (name : String) (payload : Bag) : Operation Node
  | merge (name : String) (payload : Bag) : Operation Node
  | update (node : Node) (payload : Bag) : Operation Node
  | delete (node : Node) : Operation Unit
  | deleteWithDepth (levels : Nat) (node : Node) : Operation Unit
  | deleteAll (name : String) : Operation Unit
  | relate (mode : RelateMode) (subject other : Node) (name : String) (payload : Bag) :
      Operation NodeLink
  | detach (subject other : Node) : Operation Unit
  | find (name : String) (identity : Identity) : Operation (Option Node)
  | findBy (name key : String) (value : Value) : Operation (Option Node)
  | first (name : String) (properties : Bag) : Operation (Option Node)
  | all (name : String) (selection : Selection) : Operation (List Node)

namespace Operation

variable {α σ : Type}

/-- Whether the operation only reads. -/
def access : Operation α → Access
  | .create .. | .merge .. | .update .. | .delete .. | .deleteWithDepth .. | .deleteAll ..
  | .relate .. | .detach .. => .write
  | .find .. | .findBy .. | .first .. | .all .. => .read

/-- The dialogue of the operation with a database. -/
def start (mapper : Mapper) : Operation α → StateM Supply (Dialogue (Except MapperError α))
  | .create name payload => mapper.create name payload
  | .merge name payload => mapper.merge name payload
  | .update node payload => return mapper.update node payload
  | .delete node => return mapper.delete node
  | .deleteWithDepth levels node => return mapper.deleteWithDepth levels node
  | .deleteAll name => return mapper.deleteAll name
  | .relate mode subject other name payload =>
    return mapper.relate mode subject other name payload
  | .detach subject other => return Mapper.detach subject other
  | .find name identity => return mapper.find name identity
  | .findBy name key value => return mapper.findBy name key value
  | .first name properties => return mapper.first name properties
  | .all name selection => return mapper.all name selection

end Operation

section

variable {α σ : Type}

/-- A call, which is noted at the end of the log. -/
def noting (entries : List LogEntry) (call : StateM σ α) : StateM (σ × List LogEntry) α :=
  fun before => ((call before.1).1, (call before.1).2, before.2 ++ entries)

/-- The database with a log of the calls that it gets. -/
def Database.logged (db : Database σ) : Database (σ × List LogEntry) where
  run access query := noting [.run access query] (db.run access query)
  begin := noting [.begin] db.begin
  dispatch queries := noting (queries.map .runInTransaction) (db.dispatch queries)
  commit := noting [.commit] db.commit
  rollback := noting [.rollback] db.rollback

/-- How an operation ends on a database: its result, the state that it leaves, and the calls that it
has made. -/
structure Ending (α σ : Type) where
  result : Except MapperError α
  state : σ
  calls : List LogEntry

/-- Carries an operation out on a database that is in some state. -/
def Operation.endsOn (operation : Operation α) (mapper : Mapper) (supply : Supply)
    (db : Database σ) (state : σ) : Ending α σ :=
  let (result, after, calls) :=
    (((operation.start mapper).run supply).1.answeredBy db.logged).run (state, [])
  ⟨result, after, calls⟩

/-- The ways in which an operation that asks for this access may end. -/
inductive Ending.Follows (access : Access) (db : Database σ) (state : σ) : Ending α σ → Prop
  /-- It is refused without a call. -/
  | refused {e : MapperError} (h : e.IsRefusal) : Follows access db state ⟨.error e, state, []⟩
  /-- The database fails, which is reported with the query. -/
  | failed {query : Query} {cause : DatabaseError} {after : σ}
      (h : db.run access query state = (.error cause, after)) :
      Follows access db state ⟨.error (.execution query cause), after, [.run access query]⟩
  /-- The database replies with rows, which may be at fault. -/
  | answered {query : Query} {rows : List Row} {after : σ} {result : Except MapperError α}
      (h : db.run access query state = (.ok rows, after))
      (hresult : Ends (fun _ => True) IsMisread result) :
      Follows access db state ⟨result, after, [.run access query]⟩

/-- A request is sent once, and its reply decides how it ends. -/
theorem run_send (request : Request α) (db : Database σ) (state : σ) :
    (request.send.answeredBy db.logged).run (state, []) =
      (match (db.run request.access request.query state).1 with
        | .ok rows => request.answer rows
        | .error cause => .error (.execution request.query cause),
      (db.run request.access request.query state).2, [.run request.access request.query]) := by
  rw [Request.send, Dialogue.answeredBy, StateT.run_bind]
  change ((match (db.run request.access request.query state).1 with
      | .ok rows => Dialogue.done (request.answer rows)
      | .error cause => .done (.error (.execution request.query cause))).answeredBy db.logged).run
        ((db.run request.access request.query state).2, [.run request.access request.query]) = _
  cases (db.run request.access request.query state).1 <;> rfl

/-- A proper request ends in one of these ways, and so does a refusal. -/
theorem follows_of_requests {access : Access} {attempt : Except MapperError (Request α)}
    (h : Requests access attempt) (db : Database σ) (state : σ) :
    let (result, after, calls) :=
      ((Dialogue.ofRequest attempt).answeredBy db.logged).run (state, [])
    Ending.Follows access db state ⟨result, after, calls⟩ := by
  cases attempt with
  | error e => exact .refused h
  | ok request =>
    rw [Dialogue.ofRequest, run_send, h.access]
    match hrun : db.run access request.query state with
    | (.error cause, after) => exact .failed hrun
    | (.ok rows, after) => exact .answered hrun (h.answer rows)

/-- Every operation ends in one of these ways. -/
theorem follows_endsOn (mapper : Mapper) (operation : Operation α) (supply : Supply)
    (db : Database σ) (state : σ) :
    (operation.endsOn mapper supply db state).Follows operation.access db state := by
  cases operation with
  | create name payload =>
    exact follows_of_requests (mapper.requests_write .create name payload supply) db state
  | merge name payload =>
    exact follows_of_requests (mapper.requests_write .merge name payload supply) db state
  | update node payload => exact follows_of_requests (mapper.requests_update node payload) db state
  | delete node => exact follows_of_requests (mapper.requests_delete _ _ _) db state
  | deleteWithDepth levels node =>
    exact follows_of_requests (mapper.requests_delete levels _ _) db state
  | deleteAll name => exact follows_of_requests (mapper.requests_deleteAll name) db state
  | relate mode subject other name payload =>
    exact follows_of_requests (mapper.requests_relate mode subject other name payload) db state
  | detach subject other =>
    exact follows_of_requests (Mapper.requests_detach subject other) db state
  | find name identity => exact follows_of_requests (mapper.requests_find name rfl) db state
  | findBy name key value => exact follows_of_requests (mapper.requests_find name rfl) db state
  | first name properties =>
    refine follows_of_requests (mapper.requests_find name ?_) db state
    simp [Step.whereProperties, Step.goesOn, Function.comp_def]
  | all name selection => exact follows_of_requests (mapper.requests_all name selection) db state

/-- An operation that fails with anything but a failure of the database, or of its reply, has made
no call, and the database is as it was. Every other operation has made one call, which asks for its
access, and exactly where that call fails it reports so, with the query that was sent. No operation
stops at a fault of its own drafting. -/
theorem rejected_untouched (mapper : Mapper) (operation : Operation α) (supply : Supply)
    (db : Database σ) (state : σ) :
    let ending := operation.endsOn mapper supply db state
    (∀ e, ending.result = .error e → ¬ e.IsReply → ending.calls = [] ∧ ending.state = state) ∧
    ((∀ e, ending.result = .error e → e.IsReply) →
      ∃ query, ending.calls = [.run operation.access query] ∧
        (db.run operation.access query state).2 = ending.state ∧
        ∀ sent cause, ending.result = .error (.execution sent cause) ↔
          sent = query ∧ (db.run operation.access query state).1 = .error cause) ∧
    ∀ fault, ending.result ≠ .error (.fault fault) := by
  have hfollows := follows_endsOn mapper operation supply db state
  generalize operation.endsOn mapper supply db state = ending at hfollows
  cases hfollows with
  | refused hrefusal =>
    refine ⟨fun e he _ => ⟨rfl, rfl⟩, fun hreply => ?_, fun fault hfault => ?_⟩
    · exact absurd (hreply _ rfl) hrefusal.not_isReply
    · cases hfault
      exact hrefusal
  | @failed query cause after hrun =>
    refine ⟨fun e he hreply => ?_, fun _ => ⟨query, rfl, by rw [hrun], fun sent other => ?_⟩,
      nofun⟩
    · cases he
      exact absurd trivial hreply
    · simp [hrun, eq_comm]
  | @answered query rows after result hrun hresult =>
    refine ⟨fun e he hreply => ?_, fun _ => ⟨query, rfl, by rw [hrun], fun sent cause => ?_⟩,
      fun fault hfault => ?_⟩
    · obtain rfl : result = .error e := he
      exact absurd (MapperError.IsMisread.isReply hresult) hreply
    · refine iff_of_false (fun he => ?_) (by simp [hrun])
      obtain rfl : result = .error (.execution sent cause) := he
      exact hresult
    · obtain rfl : result = .error (.fault fault) := hfault
      exact hresult

end

end GraphMapper
