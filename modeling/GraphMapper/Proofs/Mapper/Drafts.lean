import GraphMapper.Proofs.Mapper.Written
import GraphMapper.Proofs.Write.Entities

/-!
# The drafts of writes

A creation, a merge or an update that is not refused sends the query of a draft
(`WriteCall.sends_iff`). What that query writes of nodes can be read off the plan of a prepared
payload (`exists_plan_of_writeDraft`), or off the checked bag of an update
(`exists_checked_of_updateDraft`).
-/

namespace GraphMapper

open Cypher Preparing

/-- A call that writes an entity, and what is related to it, from a bag. -/
inductive WriteCall where
  | write (mode : WriteMode) (name : String) (payload : Bag) (supply : Supply)
  | update (node : Node) (payload : Bag)

/-- How the call talks to the database. -/
def WriteCall.dialogue (mapper : Mapper) : WriteCall → Dialogue (Except MapperError Node)
  | .write mode name payload supply => ((mapper.write mode name payload).run supply).1
  | .update node payload => mapper.update node payload

/-- The steps that set the properties of a checked bag on an entity. -/
def updateSteps (node : Node) (checked : Bag) (expression : String) : List Step :=
  [.start .find rootVar node.model.labels [], .whereId rootVar node.identity]
    ++ Step.setProperties rootVar (Mapper.writable node.model checked)
    ++ [.returning [expression]]

/-- The draft of the query that updates an entity. -/
def Mapper.updateDraft (mapper : Mapper) (node : Node) (payload : Bag) :
    Except MapperError Draft := do
  let checked ← (validate .update node.model payload).mapError .validation
  let expression ← mapper.returned rootVar node.model
  (Draft.run {} (updateSteps node checked expression)).mapError .fault

/-- The draft that a call comes to. -/
inductive WriteCall.Drafts (mapper : Mapper) : WriteCall → Draft → Prop
  | write {mode : WriteMode} {name : String} {payload prepared : Bag} {supply rest : Supply}
      {model : EntityType} {draft : Draft} (hmodel : mapper.model name = .ok model)
      (hprepared : (prepare mapper.registry mapper.config.maxWriteDepth model payload).run.run
        supply = (.ok prepared, rest))
      (hdraft : mapper.writeDraft mode model prepared = .ok draft) :
    Drafts mapper (.write mode name payload supply) draft
  | update {node : Node} {payload : Bag} {draft : Draft}
      (hdraft : mapper.updateDraft node payload = .ok draft) :
    Drafts mapper (.update node payload) draft

variable {mapper : Mapper} {mode : WriteMode} {name : String} {payload prepared : Bag}
  {supply rest : Supply} {model : EntityType} {draft : Draft} {node : Node}

/-- A request to write a payload is that of a draft. -/
theorem exists_draft_of_writeRequest {request : Request Node}
    (h : (mapper.writeRequest mode name payload).run.run supply = (.ok request, rest)) :
    ∃ draft, (WriteCall.write mode name payload supply).Drafts mapper draft ∧
      request.access = .write ∧ request.query = draft.query := by
  obtain ⟨model, _, hrunModel, h⟩ := exists_run_of_bind h
  obtain ⟨hmodel, rfl⟩ := run_ofExcept hrunModel
  obtain ⟨prepared, _, hprepared, h⟩ := exists_run_of_bind h
  obtain ⟨query, _, hrunQuery, h⟩ := exists_run_of_bind h
  obtain ⟨hquery, rfl⟩ := run_ofExcept hrunQuery
  cases h
  rw [Mapper.writeQuery_eq] at hquery
  obtain ⟨draft, hdraft, rfl⟩ := map_eq_ok.mp hquery
  exact ⟨draft, .write hmodel hprepared hdraft, rfl, rfl⟩

/-- An update requests the query of its draft. -/
theorem updateRequest_eq : mapper.updateRequest node payload =
    (mapper.updateDraft node payload).map fun draft => ⟨.write, draft.query,
      mapper.firstNode rootVar node.model ("update " ++ node.model.name)⟩ := by
  unfold Mapper.updateRequest Mapper.updateDraft Mapper.queryOf updateSteps
  dsimp only
  cases (validate .update node.model payload).mapError MapperError.validation with
  | error e => rfl
  | ok checked =>
    cases mapper.returned rootVar node.model with
    | error e => rfl
    | ok expression =>
      simp only [bind, Except.bind]
      generalize Draft.run {} _ = outcome
      cases outcome <;> rfl

/-- A call sends a query exactly when it is that of a draft the call comes to, and then it sends it
to write. -/
theorem WriteCall.sends_iff {call : WriteCall} {access : Access} {query : Query} :
    (∃ next, call.dialogue mapper = .run access query next) ↔
      access = .write ∧ ∃ draft, call.Drafts mapper draft ∧ query = draft.query := by
  constructor
  · rintro ⟨next, h⟩
    cases call with
    | write mode name payload supply =>
      obtain ⟨request, hrequest, rfl, rfl⟩ := exists_request_of_run h
      obtain ⟨draft, hdraft, haccess, hquery⟩ :=
        exists_draft_of_writeRequest (Prod.ext hrequest rfl)
      exact ⟨haccess, draft, hdraft, hquery⟩
    | update node payload =>
      obtain ⟨request, hrequest, rfl, rfl⟩ := exists_request_of_run h
      rw [updateRequest_eq] at hrequest
      obtain ⟨draft, hdraft, rfl⟩ := map_eq_ok.mp hrequest
      exact ⟨rfl, draft, .update hdraft, rfl⟩
  · rintro ⟨rfl, draft, hdraft, rfl⟩
    cases hdraft with
    | write hmodel hprepared hdraft =>
      have hquery := (congrArg (Except.map Draft.query) hdraft)
      rw [← Mapper.writeQuery_eq] at hquery
      have hrequest := run_writeRequest hmodel hprepared hquery
      exact ⟨_, congrArg (Dialogue.ofRequest ∘ Prod.fst) hrequest⟩
    | update hdraft =>
      have hrequest := updateRequest_eq.trans (congrArg (Except.map _) hdraft)
      exact ⟨_, congrArg Dialogue.ofRequest hrequest⟩

/-- A payload that is written comes to a draft, and what that writes of nodes is what the plan of
the payload does. -/
theorem exists_plan_of_writeDraft (h : mapper.writeDraft mode model prepared = .ok draft) :
    ∃ plan, WritePlan.ofPayload mapper.registry mapper.config.writeLimit mode rootVar model
        prepared = .ok plan ∧ draft.nodeWrites? = some plan.nodeWrites := by
  obtain ⟨plan, hplan, h⟩ := bind_eq_ok.mp h
  obtain ⟨expression, -, h⟩ := bind_eq_ok.mp h
  have hplanned := mapError_eq_ok.mp hplan
  have hroot : isIdentifier rootVar.toList := by decide
  have hsteps : Adds (plan.steps ++ [.carry [rootVar], .returning [expression]])
      (plan.nodeWrites ++ []) := (planNode_adds hplanned hroot).append (adds_returning _ _)
  rw [List.append_nil] at hsteps
  exact ⟨plan, hplanned, hsteps.nodeWrites? (mapError_eq_ok.mp h)⟩

/-- What an update writes of nodes is what is writable of the checked bag, if anything is. -/
theorem exists_checked_of_updateDraft (h : mapper.updateDraft node payload = .ok draft) :
    ∃ checked, validate .update node.model payload = .ok checked ∧
      draft.nodeWrites? = some (if (Mapper.writable node.model checked).isEmpty then [] else
        [.update node.identity
          { var := rootVar, labels := node.model.labels, inline := [],
            set := Mapper.writable node.model checked }]) := by
  obtain ⟨checked, hchecked, h⟩ := bind_eq_ok.mp h
  obtain ⟨expression, -, h⟩ := bind_eq_ok.mp h
  have hroot : isIdentifier rootVar.toList := by decide
  exact ⟨checked, mapError_eq_ok.mp hchecked,
    (adds_update hroot _ _ _ _).nodeWrites? (mapError_eq_ok.mp h)⟩

end GraphMapper
