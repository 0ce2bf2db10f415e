import GraphMapper.Proofs.Cypher.Scope

/-!
# What steps add to the scope

`Leads` says of steps that, from any draft, they can be taken, that the statements they add are well
scoped, and what is known of the variables in scope afterwards. Steps one after the other lead where
the last of them lead (`Leads.append`).

The groups of steps that a write is made of add one statement each: one that takes variables over
(`leads_carry`), one that writes an entity (`leads_entity`), one that finds an entity by its
identity (`leads_found`), and one that joins two entities by a relationship (`leads_link`). The
statement is followed from the step that opens it through the steps that add to its sections.
-/

namespace GraphMapper.Cypher

open Statement

/-- The statements of a draft are some that are closed, and an open one of which `holds`. -/
def Draft.Opened (closed : List Statement) (holds : Statement → Prop) (draft : Draft) : Prop :=
  draft.closed = closed ∧ ∃ s, draft.current = some s ∧ holds s

/-- From any draft, steps can be taken and add statements that are well scoped where `bound` is in
scope, and `holds` of what is in scope afterwards. -/
def Leads (bound : List String) (steps : List Step) (holds : List String → Prop) : Prop :=
  ∀ draft : Draft, ∃ after added, draft.run steps = .ok after ∧
    after.statements = draft.statements ++ added ∧ WellScoped bound added ∧
    holds (scopeAfterAll bound added)

variable {bound : List String} {steps more : List Step} {holds final : List String → Prop}

/-- No steps leave the scope as it is. -/
theorem leads_nil (h : holds bound) : Leads bound [] holds :=
  fun draft => ⟨draft, [], rfl, by simp, trivial, h⟩

/-- A run of steps in two lists is a run of the first and then of the second. -/
theorem run_append_eq_ok {draft mid after : Draft} (h : draft.run steps = .ok mid)
    (hmore : mid.run more = .ok after) : draft.run (steps ++ more) = .ok after := by
  rw [Draft.run, List.foldlM_append]
  exact bind_eq_ok.mpr ⟨mid, h, hmore⟩

/-- A run of a step and of more is that step and a run of the others. -/
theorem run_cons_eq_ok {step : Step} {draft mid after : Draft} (h : draft.step step = .ok mid)
    (hmore : mid.run more = .ok after) : draft.run (step :: more) = .ok after := by
  rw [Draft.run, List.foldlM_cons]
  exact bind_eq_ok.mpr ⟨mid, h, hmore⟩

/-- More steps lead on from wherever the first steps lead. -/
theorem Leads.append (h : Leads bound steps holds)
    (hmore : ∀ mid, holds mid → Leads mid more final) : Leads bound (steps ++ more) final := by
  intro draft
  obtain ⟨mid, added, hrun, hstatements, hscoped, hmid⟩ := h draft
  obtain ⟨after, others, hrun', hstatements', hscoped', hafter⟩ := hmore _ hmid mid
  refine ⟨after, added ++ others, ?_, ?_, wellScoped_append.mpr ⟨hscoped, hscoped'⟩, ?_⟩
  · exact run_append_eq_ok hrun hrun'
  · rw [hstatements', hstatements, List.append_assoc]
  · rwa [scopeAfterAll_append]

/-- Less may be said of where steps lead. -/
theorem Leads.imp (h : Leads bound steps holds) (himp : ∀ mid, holds mid → final mid) :
    Leads bound steps final := by
  intro draft
  obtain ⟨after, added, hrun, hstatements, hscoped, hafter⟩ := h draft
  exact ⟨after, added, hrun, hstatements, hscoped, himp _ hafter⟩

section

variable {verb : Verb} {ends : List String} {var : String}

/-- Steps that add one statement, which binds one variable, lead to a scope with that variable. -/
theorem leads_of_opened (hends : ends ⊆ bound) (hfresh : var ∉ bound)
    (hplain : isIdentifier var.toList)
    (h : ∀ draft : Draft, ∃ after, draft.run steps = .ok after ∧
      after.Opened draft.statements (Introduces verb ends var)) :
    Leads bound steps (· = bound ++ [var]) := by
  intro draft
  obtain ⟨after, hrun, hclosed, s, hcurrent, hs⟩ := h draft
  obtain ⟨hscoped, hafter⟩ := hs.scoped hends hfresh hplain
  refine ⟨after, [s], hrun, ?_, ⟨hscoped, trivial⟩, hafter⟩
  simp [Draft.statements, hclosed, hcurrent]

/-- Variables that are bound may be taken over, and only they are in scope then. -/
theorem leads_carry {vars : List String} (h : vars ⊆ bound) :
    Leads bound [.carry vars] (· = vars) := by
  intro draft
  refine ⟨_, [{ head := .carry vars }], rfl, ?_, ⟨?_, trivial⟩, ?_⟩
  · simp [Draft.openStatement, Draft.statements]
  · constructor <;> simp_all [kept, introduced, conditions, items]
  · simp [scopeAfterAll, scopeAfter, kept, introduced]

/-- A statement of one path. -/
def pathStatement (verb : Verb) (elements : List PathElement) : Statement :=
  { head := .paths verb, paths := [⟨elements⟩] }

/-- A node alone binds its variable. -/
theorem introduces_node {node : NodePattern} (h : node.var = some var) :
    (pathStatement verb [.node node]).Introduces verb [] var where
  head := rfl
  introduced := by simp [pathStatement, introduced, Path.introduced, h]
  ends := by simp [pathStatement, Path.ends]
  conditions := by simp [pathStatement, conditions]
  items := by simp [pathStatement, items]
  onCreateSet h := absurd rfl h

/-- A relationship between two nodes binds its own variable. -/
theorem introduces_relationship {near far : NodePattern} {rel : RelationshipPattern}
    {nearVar farVar : String} (hnear : near.var = some nearVar) (hfar : far.var = some farVar)
    (hrel : rel.var = some var) :
    (pathStatement verb [.node near, .relationship rel, .node far]).Introduces verb
      [nearVar, farVar] var where
  head := rfl
  introduced := by
    simp [pathStatement, introduced, Path.introduced, List.filterMap_cons,
      PathElement.relationshipVar?, hrel]
  ends := by
    simp [pathStatement, Path.ends, List.filterMap_cons, PathElement.nodeVar?, hnear, hfar]
  conditions := by simp [pathStatement, conditions]
  items := by simp [pathStatement, items]
  onCreateSet h := absurd rfl h

/-- Properties are bound to parameters, and nothing else of a draft is changed. -/
theorem addProperties_keeps (draft : Draft) (var : String) (properties : Bag) :
    (draft.addProperties var properties).2.closed = draft.closed ∧
      (draft.addProperties var properties).2.current = draft.current := by
  induction properties generalizing draft with
  | nil => exact ⟨rfl, rfl⟩
  | cons entry rest ih =>
    obtain ⟨key, value⟩ := entry
    simp only [Draft.addProperties]
    split
    · exact ih draft
    · exact ih _

/-- A node pattern has the variable that it is given, unless that is empty. -/
theorem nodePattern_spec (draft : Draft) (hvar : isIdentifier var.toList) (labels : List String)
    (properties : Bag) :
    ∃ node after, draft.nodePattern var labels properties = (node, after) ∧
      node.var = some var ∧ after.closed = draft.closed ∧ after.current = draft.current := by
  have hne : var ≠ "" := by
    rintro rfl
    simp [isIdentifier] at hvar
  refine ⟨_, _, rfl, ?_, addProperties_keeps draft var properties⟩
  simp [hne]

/-- A statement begins with the node that it is started with. -/
theorem step_start (draft : Draft) (hvar : isIdentifier var.toList) (labels : List String)
    (properties : Bag) :
    ∃ after, draft.step (.start verb var labels properties) = .ok after ∧
      after.Opened draft.statements fun s =>
        ∃ node, node.var = some var ∧ s = pathStatement verb [.node node] := by
  obtain ⟨node, mid, hnode, hnodeVar, hclosed, hcurrent⟩ :=
    nodePattern_spec draft hvar labels properties
  refine ⟨mid.openStatement (pathStatement verb [.node node]), ?_, ?_, _, rfl, node, hnodeVar, rfl⟩
  · simp only [Draft.step, hnode]
    rfl
  · simp [Draft.openStatement, Draft.statements, hclosed, hcurrent]

/-- A statement of one path is extended at its end. -/
theorem extendPath_pathStatement {draft : Draft} {closed : List Statement}
    {elements : List PathElement} (element : PathElement) (hclosed : draft.closed = closed)
    (hcurrent : draft.current = some (pathStatement verb elements)) :
    ∃ after, draft.extendPath element = .ok after ∧ after.closed = closed ∧
      after.current = some (pathStatement verb (elements ++ [element])) := by
  refine ⟨{ draft with current := some (pathStatement verb (elements ++ [element])) }, ?_,
    hclosed, rfl⟩
  simp [Draft.extendPath, hcurrent, pathStatement]

/-- A change by a value takes the open statement from what held of it to what holds of the changed
one. -/
theorem modifyWith_opened {draft : Draft} {closed : List Statement}
    {before after : Statement → Prop} {change : String → Statement → Statement} (base : String)
    (value : Value) (hchange : ∀ name s, before s → after (change name s))
    (h : draft.Opened closed before) :
    ∃ changed, draft.modifyWith base value change = .ok changed ∧ changed.Opened closed after := by
  obtain ⟨hclosed, s, hcurrent, hs⟩ := h
  simp only [Draft.modifyWith, hcurrent, Draft.addParam, Draft.modify]
  exact ⟨_, rfl, hclosed, _, rfl, hchange _ s hs⟩

/-- Items that write to the variable may be added to a statement; to one that is no merge, none for
creation. -/
theorem introduces_addItems {s changed : Statement} (h : s.Introduces verb ends var)
    (hhead : changed.head = s.head) (hpaths : changed.paths = s.paths)
    (hfilter : changed.filter = s.filter)
    (hitems : ∀ item ∈ changed.items, item ∈ s.items ∨ item.var? = some var)
    (honCreateSet : changed.onCreateSet ≠ [] → verb = .merge) :
    changed.Introduces verb ends var where
  head := hhead.trans h.head
  introduced := by rw [introduced, hpaths]; exact h.introduced
  ends := by rw [hpaths]; exact h.ends
  conditions := by rw [Statement.conditions, hfilter]; exact h.conditions
  items item hitem := (hitems item hitem).elim (h.items item) id
  onCreateSet := honCreateSet

/-- To set a property of the variable keeps what is said of its statement. -/
theorem step_set {draft : Draft} {closed : List Statement} (hvar : isIdentifier var.toList)
    (key : String) (value : Value) (h : draft.Opened closed (Introduces verb ends var)) :
    ∃ after, draft.step (.set (Step.property var key) value) = .ok after ∧
      after.Opened closed (Introduces verb ends var) := by
  simp only [Draft.step]
  refine modifyWith_opened _ _ (fun name s hs => ?_) h
  refine introduces_addItems hs rfl rfl rfl (fun item hitem => ?_) hs.onCreateSet
  simp only [items, ← List.append_assoc] at hitem
  rcases List.mem_append.mp hitem with hitem | hitem
  · exact .inl hitem
  · obtain rfl := List.mem_singleton.mp hitem
    exact .inr (by simp [SetItem.var?, expressionVar_property hvar])

/-- To ask for the identity of the variable keeps what is said of a statement without filter. -/
theorem step_whereId {draft : Draft} {closed : List Statement} (identity : Identity)
    (h : draft.Opened closed fun s =>
      s.Introduces verb ends var ∧ s.filter.groups = []) :
    ∃ after, draft.step (.whereId var identity) = .ok after ∧
      after.Opened closed (Introduces verb ends var) := by
  simp only [Draft.step]
  refine modifyWith_opened _ _ (fun name s hs => ?_) h
  obtain ⟨hs, hfilter⟩ := hs
  refine ⟨hs.head, hs.introduced, hs.ends, ?_, hs.items, hs.onCreateSet⟩
  simp [Draft.addPredicate, conditions, Filter.add, hfilter, Condition.var?]

/-- To set a property of the variable on creation keeps what is said of a merge. -/
theorem step_onCreateSet {draft : Draft} {closed : List Statement}
    (hvar : isIdentifier var.toList) (key : String) (value : Value)
    (h : draft.Opened closed (Introduces .merge ends var)) :
    ∃ after, draft.step (.onCreateSet (Step.property var key) value) = .ok after ∧
      after.Opened closed (Introduces .merge ends var) := by
  simp only [Draft.step]
  refine modifyWith_opened _ _ (fun name s hs => ?_) h
  refine introduces_addItems hs rfl rfl rfl (fun item hitem => ?_) fun _ => rfl
  -- The new item is the last of those for creation, and other items follow it.
  simp only [items, List.mem_append, List.mem_singleton] at hitem
  rcases hitem with ((hitem | rfl) | hitem) | hitem
  · exact .inl (by simp [items, hitem])
  · exact .inr (by simp [SetItem.var?, expressionVar_property hvar])
  · exact .inl (by simp [items, hitem])
  · exact .inl (by simp [items, hitem])

/-- To set properties of the variable keeps what is said of its statement. -/
theorem run_setProperties {draft : Draft} {closed : List Statement} (hvar : isIdentifier var.toList)
    (properties : Bag) (h : draft.Opened closed (Introduces verb ends var)) :
    ∃ after, draft.run (Step.setProperties var properties) = .ok after ∧
      after.Opened closed (Introduces verb ends var) := by
  refine foldlM_keeps (fun step hstep state hstate => ?_) h
  obtain ⟨entry, -, rfl⟩ := List.mem_map.mp hstep
  exact step_set hvar entry.1 entry.2 hstate

/-- To set properties of the variable on creation keeps what is said of a merge. -/
theorem run_createProperties {draft : Draft} {closed : List Statement}
    (hvar : isIdentifier var.toList) (properties : Bag) (hmerge : properties ≠ [] → verb = .merge)
    (h : draft.Opened closed (Introduces verb ends var)) :
    ∃ after, draft.run (Step.createProperties var properties) = .ok after ∧
      after.Opened closed (Introduces verb ends var) := by
  refine foldlM_keeps (fun step hstep state hstate => ?_) h
  obtain ⟨entry, hentry, rfl⟩ := List.mem_map.mp hstep
  obtain rfl := hmerge (List.ne_nil_of_mem hentry)
  exact step_onCreateSet hvar entry.1 entry.2 hstate

/-- The statement that writes an entity binds its variable. -/
theorem leads_entity (hfresh : var ∉ bound) (hvar : isIdentifier var.toList)
    (labels : List String) (inline onCreate set : Bag) (hmerge : onCreate ≠ [] → verb = .merge) :
    Leads bound (.start verb var labels inline
      :: Step.createProperties var onCreate ++ Step.setProperties var set)
      (· = bound ++ [var]) := by
  have hone : ∀ draft : Draft, ∃ after, draft.run (.start verb var labels inline
      :: Step.createProperties var onCreate ++ Step.setProperties var set) = .ok after ∧
      after.Opened draft.statements (Introduces verb [] var) := by
    intro draft
    obtain ⟨opened, hstart, hclosed, s, hcurrent, node, hnode, rfl⟩ :=
      step_start draft hvar labels inline
    obtain ⟨created, hcreate, hcreated⟩ := run_createProperties hvar onCreate hmerge
      ⟨hclosed, _, hcurrent, introduces_node hnode⟩
    obtain ⟨after, hset, hafter⟩ := run_setProperties hvar set hcreated
    exact ⟨after, run_cons_eq_ok hstart (run_append_eq_ok hcreate hset), hafter⟩
  exact leads_of_opened (List.nil_subset bound) hfresh hvar hone

/-- The statement that finds an entity by its identity binds its variable. -/
theorem leads_found (hfresh : var ∉ bound) (hvar : isIdentifier var.toList)
    (identity : Identity) :
    Leads bound [.start .find var [] [], .whereId var identity] (· = bound ++ [var]) := by
  have hone : ∀ draft : Draft, ∃ after,
      draft.run [.start .find var [] [], .whereId var identity] = .ok after ∧
      after.Opened draft.statements (Introduces .find [] var) := by
    intro draft
    obtain ⟨opened, hstart, hclosed, s, hcurrent, node, hnode, rfl⟩ := step_start draft hvar [] []
    obtain ⟨after, hwhere, hafter⟩ := step_whereId identity
      ⟨hclosed, _, hcurrent, introduces_node hnode, rfl⟩
    exact ⟨after, run_cons_eq_ok hstart (run_cons_eq_ok hwhere rfl), hafter⟩
  exact leads_of_opened (List.nil_subset bound) hfresh hvar hone

/-- The statement that joins two bound entities binds the variable of the relationship. -/
theorem leads_link {near far : String} (hnear : near ∈ bound) (hfar : far ∈ bound)
    (hnearVar : isIdentifier near.toList) (hfarVar : isIdentifier far.toList) (hfresh : var ∉ bound)
    (hvar : isIdentifier var.toList) (type : String) (direction : Direction) (properties : Bag) :
    Leads bound ([.start verb near [] [], .relationship (some var) [type] direction none,
      .to far [] []] ++ Step.setProperties var properties) (· = bound ++ [var]) := by
  have hone : ∀ draft : Draft, ∃ after, draft.run ([.start verb near [] [],
      .relationship (some var) [type] direction none, .to far [] []]
        ++ Step.setProperties var properties) = .ok after ∧
      after.Opened draft.statements (Introduces verb [near, far] var) := by
    intro draft
    -- The path grows element by element, and only the whole of it is what `Introduces` speaks of.
    obtain ⟨opened, hstart, hclosed, s, hcurrent, nearNode, hnearNode, rfl⟩ :=
      step_start draft hnearVar [] []
    obtain ⟨joined, hjoin, hclosed, hcurrent⟩ := extendPath_pathStatement
      (.relationship ⟨some var, [type], direction, none⟩) hclosed hcurrent
    obtain ⟨farNode, mid, hfarPattern, hfarNode, hmidClosed, hmidCurrent⟩ :=
      nodePattern_spec joined hfarVar [] []
    obtain ⟨ended, hend, hclosed, hcurrent⟩ := extendPath_pathStatement
      (.node farNode) (hmidClosed.trans hclosed) (hmidCurrent.trans hcurrent)
    have hto : joined.step (.to far [] []) = .ok ended := by
      simpa only [Draft.step, hfarPattern] using hend
    obtain ⟨after, hset, hafter⟩ := run_setProperties hvar properties
      ⟨hclosed, _, hcurrent, introduces_relationship hnearNode hfarNode rfl⟩
    exact ⟨after, run_cons_eq_ok hstart (run_cons_eq_ok hjoin (run_cons_eq_ok hto hset)), hafter⟩
  refine leads_of_opened (fun name hname => ?_) hfresh hvar hone
  rcases List.mem_cons.mp hname with rfl | hname
  · exact hnear
  · exact List.mem_singleton.mp hname ▸ hfar

end

end GraphMapper.Cypher
