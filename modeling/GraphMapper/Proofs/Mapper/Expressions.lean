import GraphMapper.Proofs.Cypher.Legibility
import GraphMapper.Proofs.Mapper.Drafts
import GraphMapper.Proofs.Mapper.Requests
import GraphMapper.Proofs.Projection.Reading
import GraphMapper.Proofs.Write.Scope

/-!
# What the mapper writes as it is given

A step can be given any text to be written as it is. The mapper gives its steps nothing but
expressions: variables, properties of variables, and projections that are returned. An expression is
read as its lexemes, in which every key is one, and so the drafts of the mapper are legible.

The steps of writes and deletes follow plans, and the variables of these are identifiers to whatever
depth they go (`expressionsOnly_plan`, `expressionsOnly_cascade`). Every operation makes its calls
by queries of such steps (`calls_ofExpressions`).
-/

namespace GraphMapper

open Cypher

/-! ## Expressions -/

/-- What the mapper writes without quoting it. -/
inductive Expression where
  | entity (var : String)
  | property (var key : String)
  | returned (projection : Projection) (var : String)

namespace Expression

/-- The text of an expression. -/
def text : Expression → String
  | .entity var => var
  | .property var key => Step.property var key
  | .returned projection var => projection.text ++ " AS " ++ var

/-- The lexemes of an expression. -/
def lexemes : Expression → List Lexeme
  | .entity var => [.name var]
  | .property var key => [.name var, .symbol '.', .name key]
  | .returned projection var => projection.returnedLexemes var

/-- The variables of an expression are identifiers. -/
def Legible : Expression → Prop
  | .entity var => isIdentifier var.toList
  | .property var _ => isIdentifier var.toList
  | .returned projection var => projection.Legible ∧ isIdentifier var.toList

/-- A legible expression is read as its lexemes. -/
theorem Legible.reads {expression : Expression} (h : expression.Legible) :
    Reads expression.text expression.lexemes := by
  cases expression with
  | entity var => exact reads_of_isIdentifier h
  | property var key =>
    have hdot : lexemesOf "." = [.symbol '.'] := by cbv
    have hread := (reads_of_isIdentifier h).between "." (by decide) (reads_quoteName key)
    rwa [hdot] at hread
  | returned projection var => exact Projection.reads_returned h.1 h.2

end Expression

/-- A text is that of a legible expression. -/
def IsExpression (text : String) : Prop :=
  ∃ expression : Expression, expression.Legible ∧ expression.text = text

/-- All that steps are given to be written as it is are expressions. -/
def ExpressionsOnly (steps : List Step) : Prop :=
  ∀ step ∈ steps, ∀ text ∈ step.bare, IsExpression text

/-- Steps that write nothing but expressions make legible drafts. -/
theorem ExpressionsOnly.legible {steps : List Step} (h : ExpressionsOnly steps) :
    LegibleSteps steps := by
  intro step hstep text htext
  obtain ⟨expression, hlegible, rfl⟩ := h step hstep text htext
  exact hlegible.reads.standalone

/-- Steps write expressions alone if the first ones do and the others do. -/
theorem ExpressionsOnly.append {steps more : List Step} (h : ExpressionsOnly steps)
    (hmore : ExpressionsOnly more) : ExpressionsOnly (steps ++ more) :=
  List.forall_mem_append.mpr ⟨h, hmore⟩

/-- Steps that are made of items write expressions alone if each does. -/
theorem expressionsOnly_map {α : Type} {f : α → Step} {items : List α}
    (h : ∀ item ∈ items, ∀ text ∈ (f item).bare, IsExpression text) :
    ExpressionsOnly (items.map f) :=
  List.forall_mem_map.mpr h

/-- Returning expressions writes nothing else. -/
theorem expressionsOnly_returning {expression : String} (h : IsExpression expression) :
    ExpressionsOnly [.returning [expression]] :=
  List.forall_mem_singleton.mpr (List.forall_mem_singleton.mpr h)

section

variable {var : String} (hvar : isIdentifier var.toList)

include hvar

/-- An identifier is an expression. -/
theorem isExpression_var : IsExpression var := ⟨.entity var, hvar, rfl⟩

/-- A property of an identifier is an expression, whatever its key is. -/
theorem isExpression_property (key : String) :
    ∀ text ∈ [Step.property var key], IsExpression text :=
  List.forall_mem_singleton.mpr ⟨.property var key, hvar, rfl⟩

/-- What a type is returned as is an expression. -/
theorem isExpression_returned {mapper : Mapper} {model : EntityType} {expression : String}
    (h : mapper.returned var model = .ok expression) : IsExpression expression := by
  obtain ⟨projection, -, hlegible, rfl⟩ :=
    Projection.exists_projection_of_returnExpression hvar (mapError_eq_ok.mp h)
  exact ⟨.returned projection var, ⟨hlegible, hvar⟩, rfl⟩

/-- Opening a statement with a node writes expressions alone. -/
theorem expressionsOnly_start (verb : Verb) (labels : List String) (properties : Bag) :
    ExpressionsOnly [.start verb var labels properties] :=
  List.forall_mem_singleton.mpr (List.forall_mem_singleton.mpr (isExpression_var hvar))

/-- Setting properties writes expressions alone. -/
theorem expressionsOnly_setProperties (properties : Bag) :
    ExpressionsOnly (Step.setProperties var properties) :=
  expressionsOnly_map fun entry _ => isExpression_property hvar entry.1

/-- Setting properties of what is created writes expressions alone. -/
theorem expressionsOnly_createProperties (properties : Bag) :
    ExpressionsOnly (Step.createProperties var properties) :=
  expressionsOnly_map fun entry _ => isExpression_property hvar entry.1

/-- Filtering by properties writes expressions alone. -/
theorem expressionsOnly_whereProperties (properties : Bag) :
    ExpressionsOnly (Step.whereProperties var properties) :=
  expressionsOnly_map fun entry _ => isExpression_property hvar entry.1

end

/-! ## Writes -/

/-- The plans of nodes to so many levels have steps that write expressions alone. -/
def PlansExpressions (registry : Registry) (limit : WriteLimit) (levels : Nat) : Prop :=
  ∀ {mode : WriteMode} {var : String} {model : EntityType} {bag : Bag} {plan : WritePlan}
    {scope : List String}, planNode registry limit levels mode var model bag = .ok plan →
    isIdentifier var.toList → (∀ name ∈ scope, IsExpression name) →
    ExpressionsOnly (plan.stepsIn scope)

/-- The variables of a link are identifiers, and the steps to its far end write expressions
alone. -/
structure LinkOfExpressions (scope : List String) (link : WriteLink) : Prop where
  var : isIdentifier link.var.toList
  targetVar : isIdentifier link.target.var.toList
  target : ExpressionsOnly (link.target.steps scope)

section

variable {registry : Registry} {limit : WriteLimit} {levels : Nat} {mode : WriteMode}
  {var : String} {model target : EntityType} {rel : Relationship} {bag : Bag} {plan : WritePlan}
  {scope : List String}

/-- The steps to a planned far end write expressions alone, and it has the variable that it was
planned for. -/
theorem expressionsOnly_far (ih : PlansExpressions registry limit levels) {node : Value}
    {far : WriteTarget} (h : PlannedFar registry limit levels target var node far)
    (hvar : isIdentifier var.toList) (hscope : ∀ name ∈ scope, IsExpression name) :
    ExpressionsOnly (far.steps scope) ∧ far.var = var := by
  have hname := isExpression_var hvar
  cases h with
  | existing | reference =>
    exact ⟨by simpa [ExpressionsOnly, WriteTarget.steps, Step.bare] using hname, rfl⟩
  | nested entries plan hplan => exact ⟨ih hplan hvar hscope, planNode_var hplan⟩

/-- A planned link is one of expressions. -/
theorem linkOfExpressions (ih : PlansExpressions registry limit levels) {item : Value × Nat}
    {link : WriteLink} (h : PlannedLink registry limit levels var model rel target item link)
    (hvar : isIdentifier var.toList) (hscope : ∀ name ∈ scope, IsExpression name) :
    LinkOfExpressions scope link := by
  obtain ⟨node, properties, far, -, hfar, rfl⟩ := h
  have hfarVar := isIdentifier_farVar hvar rel item.2
  obtain ⟨hsteps, hsame⟩ := expressionsOnly_far ih hfar hfarVar hscope
  exact ⟨isIdentifier_linkVar hvar rel item.2, by rwa [WriteLink.target, hsame], hsteps⟩

/-- The steps of links of expressions write expressions alone. -/
theorem expressionsOnly_links (verb : Verb) {links : List WriteLink}
    (hlinks : ∀ link ∈ links, LinkOfExpressions scope link) (hvar : isIdentifier var.toList)
    (hscope : ∀ name ∈ scope, IsExpression name) :
    ExpressionsOnly (linkSteps verb var scope links) := by
  induction links with
  | nil => nofun
  | cons link rest ih =>
    obtain ⟨hlink, hfarVar, htarget⟩ := hlinks link List.mem_cons_self
    obtain ⟨name, type, direction, relVar, properties, far⟩ := link
    -- The far end is reached first, then joined to the node, and the link gets its properties.
    have hrest := ih fun link hmem => hlinks link (List.mem_cons_of_mem _ hmem)
    have hcarry : ExpressionsOnly [.carry scope] := List.forall_mem_singleton.mpr hscope
    have hjoined : ExpressionsOnly [.start verb var [] [],
        .relationship (some relVar) [type] direction none, .to far.var [] []] := by
      simpa [ExpressionsOnly, Step.bare] using
        ⟨isExpression_var hvar, isExpression_var hlink, isExpression_var hfarVar⟩
    have hset := expressionsOnly_setProperties hlink properties
    exact (((hcarry.append htarget).append hjoined).append hset).append hrest

/-- The steps of a planned node write expressions alone if those of its links do. -/
theorem expressionsOnly_node {links : List WriteLink} (hvar : isIdentifier var.toList)
    (hscope : ∀ name ∈ scope, IsExpression name)
    (hlinks : ∀ link ∈ links, LinkOfExpressions (scope ++ [var]) link) :
    ExpressionsOnly ((WritePlan.mk mode var model.labels (splitProperties mode model bag)
      links).stepsIn scope) := by
  have hbehind := forall_mem_snoc hscope (isExpression_var hvar)
  exact (((expressionsOnly_start hvar mode.verb model.labels _).append
    (expressionsOnly_createProperties hvar _)).append
    (expressionsOnly_setProperties hvar _)).append
    (expressionsOnly_links mode.verb hlinks hvar hbehind)

/-- The steps of a planned node write expressions alone if its variable is an identifier. -/
theorem expressionsOnly_plan : PlansExpressions registry limit levels := by
  induction levels with
  | zero =>
    intro mode var model bag plan scope h hvar hscope
    obtain ⟨-, rfl⟩ := planNode_zero_eq_ok.mp h
    exact expressionsOnly_node hvar hscope nofun
  | succ levels ih =>
    intro mode var model bag plan scope h hvar hscope
    obtain ⟨links, hlinks, rfl⟩ := planNode_succ_eq_ok.mp h
    refine expressionsOnly_node hvar hscope fun link hmem => ?_
    obtain ⟨rel, target, item, hlink⟩ := exists_plannedLink_of_mem hlinks hmem
    exact linkOfExpressions ih hlink hvar (forall_mem_snoc hscope (isExpression_var hvar))

end

/-! ## Deletes -/

namespace CascadePlan

/-- The variables of a plan are expressions, and its steps write expressions alone. -/
structure OfExpressions (plan : CascadePlan) : Prop where
  var : IsExpression plan.var
  matchSteps : ExpressionsOnly plan.matchSteps
  descendants : ∀ var ∈ plan.descendants, IsExpression var

variable {registry : Registry} {levels : Nat} {var : String} {plan : CascadePlan}

/-- Planned edges are matched by expressions alone if the plans of the far nodes are. -/
theorem expressionsOnly_edges
    (ih : ∀ {var found plan}, ofModel registry levels var found = .ok plan →
      isIdentifier var.toList → plan.OfExpressions)
    (hvar : isIdentifier var.toList) {rels : List Relationship} {edges : List CascadeEdge}
    (h : List.Forall₂ (PlannedEdge registry levels var) rels edges) :
    ExpressionsOnly (edgeSteps var edges) ∧ ∀ name ∈ edgesDescendants edges, IsExpression name := by
  induction h with
  | nil => exact ⟨nofun, nofun⟩
  | @cons rel edge rels edges hedge _ ihedges =>
    obtain ⟨node, -, hnode, rfl⟩ := hedge
    have hfar := ih hnode (isIdentifier_nestedVar hvar rel.name .node)
    have hrelVar := isExpression_var (isIdentifier_nestedVar hvar rel.name .relationship)
    have hmatch : ExpressionsOnly [.start .findOptional var [] [],
        .relationship (some (nestedVar var rel.name .relationship)) [rel.type] rel.direction none,
        .to node.var node.labels []] := by
      simpa [ExpressionsOnly, Step.bare] using ⟨isExpression_var hvar, hrelVar, hfar.var⟩
    refine ⟨(hmatch.append hfar.matchSteps).append ihedges.1,
      List.forall_mem_append.mpr ⟨?_, ihedges.2⟩⟩
    exact List.forall_mem_cons.mpr ⟨hfar.var, hfar.descendants⟩

/-- A plan is one of expressions if its variable is an identifier. -/
theorem expressionsOnly_cascade {found : Option EntityType}
    (h : ofModel registry levels var found = .ok plan) (hvar : isIdentifier var.toList) :
    plan.OfExpressions := by
  have hname {var : String} (hvar : isIdentifier var.toList) := isExpression_var hvar
  induction levels generalizing var found plan with
  | zero => cases found <;> cases h <;> exact ⟨hname hvar, nofun, nofun⟩
  | succ levels ih =>
    cases found with
    | none =>
      cases h
      exact ⟨hname hvar, nofun, nofun⟩
    | some model =>
      obtain ⟨edges, hedges, rfl⟩ := ofModel_succ_eq_ok.mp h
      obtain ⟨hsteps, hdescendants⟩ := expressionsOnly_edges ih hvar hedges
      exact ⟨hname hvar, hsteps, hdescendants⟩

/-- A plan of expressions has steps that write expressions alone. -/
theorem OfExpressions.steps (h : plan.OfExpressions) (identity : Identity) :
    ExpressionsOnly (plan.steps identity) := by
  have hroot : ExpressionsOnly
      [.start .find plan.var plan.labels [], .whereId plan.var identity] := by
    simpa [ExpressionsOnly, Step.bare] using h.var
  have hdeleted : ExpressionsOnly (plan.descendants.map Step.detachDelete) :=
    expressionsOnly_map fun var hmem => List.forall_mem_singleton.mpr (h.descendants var hmem)
  have hlast : ExpressionsOnly [.detachDelete plan.var] :=
    List.forall_mem_singleton.mpr (List.forall_mem_singleton.mpr h.var)
  exact ((hroot.append h.matchSteps).append hdeleted).append hlast

end CascadePlan

/-! ## Requests -/

/-- The query is one of steps that write expressions alone. -/
def Cypher.Query.OfExpressions (query : Query) : Prop :=
  ∃ steps draft, ExpressionsOnly steps ∧ Draft.run {} steps = .ok draft ∧ query = draft.query

/-- The request asks for the given access, and its query is one of expressions. -/
structure Request.OfExpressions {α : Type} (access : Access) (request : Request α) : Prop where
  access : request.access = access
  query : request.query.OfExpressions

namespace Mapper

variable {mapper : Mapper} {mode : WriteMode}

/-- A query of steps that write expressions alone is one of expressions. -/
theorem ofExpressions_of_queryOf {steps : List Step} {query : Query}
    (h : queryOf steps = .ok query) (hsteps : ExpressionsOnly steps) : query.OfExpressions := by
  obtain ⟨draft, hdraft, rfl⟩ := map_eq_ok.mp (mapError_eq_ok.mp h)
  exact ⟨steps, draft, hsteps, hdraft, rfl⟩

/-- The variable of the root is an identifier. -/
theorem isIdentifier_rootVar : isIdentifier rootVar.toList := by decide

/-- The query of a payload is one of expressions. -/
theorem writeRequest_ofExpressions {name : String} {payload : Bag} {supply : Supply}
    {request : Request Node}
    (h : ((mapper.writeRequest mode name payload).run.run supply).1 = .ok request) :
    request.OfExpressions .write := by
  obtain ⟨draft, hdrafts, haccess, hquery⟩ := exists_draft_of_writeRequest (Prod.ext h rfl)
  refine ⟨haccess, ?_⟩
  cases hdrafts with
  | write _ _ hdraft =>
    obtain ⟨plan, hplan, hdraft⟩ := bind_eq_ok.mp hdraft
    obtain ⟨expression, hexpression, hdraft⟩ := bind_eq_ok.mp hdraft
    have hroot := isExpression_var isIdentifier_rootVar
    have hreturned := isExpression_returned isIdentifier_rootVar hexpression
    have hsteps : ExpressionsOnly plan.steps :=
      expressionsOnly_plan (mapError_eq_ok.mp hplan) isIdentifier_rootVar nofun
    refine ⟨_, draft, hsteps.append ?_, mapError_eq_ok.mp hdraft, hquery⟩
    simpa [ExpressionsOnly, Step.bare] using ⟨hroot, hreturned⟩

/-- The query of an update is one of expressions. -/
theorem updateRequest_ofExpressions {node : Node} {payload : Bag} {request : Request Node}
    (h : mapper.updateRequest node payload = .ok request) : request.OfExpressions .write := by
  simp only [updateRequest, bind_eq_ok] at h
  obtain ⟨checked, -, expression, hexpression, query, hquery, h⟩ := h
  cases h
  have hfront : ExpressionsOnly
      [.start .find rootVar node.model.labels [], .whereId rootVar node.identity] := by
    simpa [ExpressionsOnly, Step.bare] using isExpression_var isIdentifier_rootVar
  have hreturn :=
    expressionsOnly_returning (isExpression_returned isIdentifier_rootVar hexpression)
  exact ⟨rfl, ofExpressions_of_queryOf hquery ((hfront.append
    (expressionsOnly_setProperties isIdentifier_rootVar _)).append hreturn)⟩

/-- The query of a delete is one of expressions. -/
theorem deleteQuery_ofExpressions {levels : Nat} {model : EntityType} {identity : Identity}
    {request : Request Unit}
    (h : (mapper.deleteQuery levels model identity).map effect = .ok request) :
    request.OfExpressions .write := by
  obtain ⟨query, hquery, rfl⟩ := map_eq_ok.mp h
  obtain ⟨plan, hplan, hquery⟩ := bind_eq_ok.mp hquery
  have hcascade :=
    CascadePlan.expressionsOnly_cascade (mapError_eq_ok.mp hplan) isIdentifier_rootVar
  exact ⟨rfl, ofExpressions_of_queryOf hquery (hcascade.steps identity)⟩

/-- The query that deletes all of a type is one of expressions. -/
theorem deleteAllQuery_ofExpressions {name : String} {request : Request Unit}
    (h : (mapper.deleteAllQuery name).map effect = .ok request) :
    request.OfExpressions .write := by
  obtain ⟨query, hquery, rfl⟩ := map_eq_ok.mp h
  obtain ⟨model, -, hquery⟩ := bind_eq_ok.mp hquery
  refine ⟨rfl, ofExpressions_of_queryOf hquery ?_⟩
  simpa [ExpressionsOnly, deleteAllSteps, Step.bare] using isExpression_var isIdentifier_rootVar

/-- The variables of two nodes and of what is between them are expressions. -/
theorem isExpression_ends : IsExpression "from" ∧ IsExpression "to" ∧ IsExpression "rel" :=
  ⟨isExpression_var (by decide), isExpression_var (by decide), isExpression_var (by decide)⟩

/-- The query that relates two nodes is one of expressions. -/
theorem relateRequest_ofExpressions {mode : RelateMode} {subject other : Node} {name : String}
    {payload : Bag} {request : Request NodeLink}
    (h : mapper.relateRequest mode subject other name payload = .ok request) :
    request.OfExpressions .write := by
  unfold relateRequest at h
  split at h
  · cases h
  · next rel _ =>
    simp only [bind_eq_ok] at h
    obtain ⟨kept, -, expression, hexpression, query, hquery, h⟩ := h
    cases h
    obtain ⟨hfrom, hother, hrel⟩ := isExpression_ends
    have hreturned := isExpression_returned (by decide) hexpression
    have hends : ExpressionsOnly
        (relateSteps mode subject other rel (KeyedList.remove kept rel.nodeKey)) := by
      refine ExpressionsOnly.append ?_ (expressionsOnly_setProperties (by decide) _)
      simp [ExpressionsOnly, Step.bare, hfrom, hother, hrel]
    refine ⟨rfl, ofExpressions_of_queryOf hquery (hends.append ?_)⟩
    simpa [ExpressionsOnly, Step.bare] using ⟨hrel, hreturned⟩

/-- The query that detaches two nodes is one of expressions. -/
theorem detachQuery_ofExpressions {subject other : Node} {request : Request Unit}
    (h : (queryOf (detachSteps subject other)).map effect = .ok request) :
    request.OfExpressions .write := by
  obtain ⟨query, hquery, rfl⟩ := map_eq_ok.mp h
  obtain ⟨hfrom, hother, hrel⟩ := isExpression_ends
  refine ⟨rfl, ofExpressions_of_queryOf hquery ?_⟩
  simp [ExpressionsOnly, detachSteps, Step.bare, hfrom, hother, hrel]

/-- The query that finds a node by conditions is one of expressions if these are. -/
theorem findRequest_ofExpressions {name : String} {conditions : List Step}
    (hconditions : ExpressionsOnly conditions) {request : Request (Option Node)}
    (h : mapper.findRequest name conditions = .ok request) : request.OfExpressions .read := by
  simp only [findRequest, bind_eq_ok] at h
  obtain ⟨model, -, expression, hexpression, query, hquery, h⟩ := h
  cases h
  have hstart := expressionsOnly_start isIdentifier_rootVar .find model.labels []
  have hreturned := isExpression_returned isIdentifier_rootVar hexpression
  have hlast : ExpressionsOnly [.returning [expression], .limit 1] := by
    simpa [ExpressionsOnly, Step.bare] using hreturned
  exact ⟨rfl, ofExpressions_of_queryOf hquery ((hstart.append hconditions).append hlast)⟩

/-- The query that selects nodes of a type is one of expressions. -/
theorem allRequest_ofExpressions {name : String} {selection : Selection}
    {request : Request (List Node)} (h : mapper.allRequest name selection = .ok request) :
    request.OfExpressions .read := by
  simp only [allRequest, bind_eq_ok] at h
  obtain ⟨model, -, expression, hexpression, query, hquery, h⟩ := h
  cases h
  have hstart := expressionsOnly_start isIdentifier_rootVar .find model.labels []
  have hreturn :=
    expressionsOnly_returning (isExpression_returned isIdentifier_rootVar hexpression)
  have horder : ExpressionsOnly
      (selection.order.map fun item => .orderBy (Step.property rootVar item.1) item.2) :=
    expressionsOnly_map fun item _ => isExpression_property isIdentifier_rootVar item.1
  have hskip : ExpressionsOnly (selection.skip.map Step.skip).toList := by
    cases selection.skip <;> simp [ExpressionsOnly, Step.bare]
  have hlimit : ExpressionsOnly (selection.limit.map Step.limit).toList := by
    cases selection.limit <;> simp [ExpressionsOnly, Step.bare]
  exact ⟨rfl, ofExpressions_of_queryOf hquery (((((hstart.append
    (expressionsOnly_whereProperties isIdentifier_rootVar _)).append hreturn).append
    horder).append hskip).append hlimit)⟩

end Mapper

/-! ## Operations -/

section

variable {α σ : Type}

/-- Requests whose queries are of expressions make no other calls. -/
theorem calls_ofExpressions_of_requests {access : Access}
    {attempt : Except MapperError (Request α)}
    (h : ∀ request, attempt = .ok request → request.OfExpressions access) (db : Database σ)
    (state : σ) :
    let (_, _, calls) := ((Dialogue.ofRequest attempt).answeredBy db.logged).run (state, [])
    ∀ call ∈ calls, ∃ query, call = .run access query ∧ query.OfExpressions := by
  cases attempt with
  | error e => exact nofun
  | ok request =>
    obtain ⟨haccess, hquery⟩ := h request rfl
    rw [Dialogue.ofRequest, run_send, haccess]
    exact List.forall_mem_singleton.mpr ⟨request.query, rfl, hquery⟩

/-- Every call of an operation is by a query of expressions. -/
theorem calls_ofExpressions (mapper : Mapper) (operation : Operation α) (supply : Supply)
    (db : Database σ) (state : σ) : ∀ call ∈ (operation.endsOn mapper supply db state).calls,
      ∃ query, call = .run operation.access query ∧ query.OfExpressions := by
  cases operation with
  | create | merge =>
    exact calls_ofExpressions_of_requests (fun _ h => Mapper.writeRequest_ofExpressions h) db state
  | update =>
    exact calls_ofExpressions_of_requests (fun _ h => Mapper.updateRequest_ofExpressions h) db state
  | delete | deleteWithDepth =>
    exact calls_ofExpressions_of_requests (fun _ h => Mapper.deleteQuery_ofExpressions h) db state
  | deleteAll =>
    exact calls_ofExpressions_of_requests
      (fun _ h => Mapper.deleteAllQuery_ofExpressions h) db state
  | relate =>
    exact calls_ofExpressions_of_requests (fun _ h => Mapper.relateRequest_ofExpressions h) db state
  | detach =>
    exact calls_ofExpressions_of_requests (fun _ h => Mapper.detachQuery_ofExpressions h) db state
  | find =>
    refine calls_ofExpressions_of_requests
      (fun _ h => Mapper.findRequest_ofExpressions ?_ h) db state
    simpa [ExpressionsOnly, Step.bare] using isExpression_var Mapper.isIdentifier_rootVar
  | findBy | first =>
    exact calls_ofExpressions_of_requests (fun _ h => Mapper.findRequest_ofExpressions
      (expressionsOnly_whereProperties Mapper.isIdentifier_rootVar _) h) db state
  | all =>
    exact calls_ofExpressions_of_requests (fun _ h => Mapper.allRequest_ofExpressions h) db state

end

end GraphMapper
