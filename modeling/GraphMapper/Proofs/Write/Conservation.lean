import GraphMapper.Proofs.Cypher.Bindings
import GraphMapper.Proofs.Write.Places
import GraphMapper.Proofs.Write.Splitting

/-!
# What a payload holds is written once

A payload holds the declared properties of its bags, and items under the keys of relationships. An
item holds the properties of its relationship and a far side: a reference, or a bag with properties
and items of its own. `payloadItems` lists the items of all levels, and `payloadValues` the values
that the whole payload holds.

`Conserves` says of steps that, from any draft, they can be taken, which values they pass, each to a
fragment, and which relationships they write. The groups of steps that a write is made of conserve
what they are given, and so the steps of a plan conserve the payload level by level
(`planNode_conserves`). With what is known of bindings, `payload_conserved` says it of the query.
Its table holds the values of the payload, each fragment has a parameter of its own, and the
relationships that it writes are those between the variables of each item and its bag.
-/

namespace GraphMapper

open Cypher

/-- The variable as it stands in a node pattern, where an empty one is left out. -/
def patternVar (var : String) : Option String :=
  if var = "" then none else some var

/-- A node with nothing but its variable. -/
def Cypher.NodePattern.ofVar (var : String) : NodePattern :=
  ⟨patternVar var, [], []⟩

/-- The items under the key of a relationship: those of a list, or the value itself. -/
def heldItems : Value → List Value
  | .list items => items
  | value => [value]

/-- The values of the declared properties of a bag, but for nulls. -/
def propertyValues (model : EntityType) (bag : Bag) : List Value :=
  model.properties.filterMap fun p => bag.present? p.name

/-- An item of a payload: the variable of the bag it belongs to, the relationship it stands under
and the target of that, the item and its place. -/
structure RelatedItem where
  near : String
  rel : Relationship
  target : EntityType
  value : Value
  index : Nat

namespace RelatedItem

/-- The variable of the far node. -/
def far (item : RelatedItem) : String :=
  farVar item.near item.rel item.index

/-- The values of the declared properties of the relationship, if it is held, but for nulls. -/
def relationshipValues (item : RelatedItem) : List Value :=
  if item.rel.shape.isRelationship then
    match item.value with
    | .map entries => ((Bag.nonNull entries).filter fun entry =>
        (item.rel.property? entry.1).isSome).map Prod.snd
    | _ => []
  else []

/-- The values of the far side: the identity of a node, the declared properties of a bag, and a
scalar itself. -/
def farValues (item : RelatedItem) : List Value :=
  match farSide? item.rel item.value with
  | some (.node identity _ _) => [.int identity]
  | some (.map entries) => propertyValues item.target entries
  | some value => [value]
  | none => []

/-- The values that an item holds beside the items below it. -/
def values (item : RelatedItem) : List Value :=
  item.farValues ++ item.relationshipValues

/-- The pattern that joins the bag to the far node. -/
def path (item : RelatedItem) : Path :=
  ⟨[.node (.ofVar item.near),
    .relationship ⟨some (linkVar item.near item.rel item.index), [item.rel.type],
      item.rel.direction.forWriting, none⟩,
    .node (.ofVar item.far)]⟩

/-- An item behind the items below it, which `reach` lists of the far bag. -/
def withNested (reach : String → EntityType → Bag → List RelatedItem) (item : RelatedItem) :
    List RelatedItem :=
  match farSide? item.rel item.value with
  | some (.map entries) => reach item.far item.target entries ++ [item]
  | _ => [item]

end RelatedItem

/-- The items under one relationship of a bag, with the items below them. -/
def itemsUnder (registry : Registry) (reach : String → EntityType → Bag → List RelatedItem)
    (var : String) (bag : Bag) (rel : Relationship) : List RelatedItem :=
  match bag.present? rel.name, registry.target? rel with
  | some value, some target => (heldItems value).zipIdx.flatMap fun item =>
    RelatedItem.withNested reach ⟨var, rel, target, item.1, item.2⟩
  | _, _ => []

/-- The items that a payload holds on so many levels, each behind those below it. -/
def payloadItems (registry : Registry) : Nat → String → EntityType → Bag → List RelatedItem
  | 0, _, _, _ => []
  | levels + 1, var, model, bag =>
    model.relationships.flatMap (itemsUnder registry (payloadItems registry levels) var bag)

/-- The values that a payload holds on so many levels. -/
def payloadValues (registry : Registry) (levels : Nat) (var : String) (model : EntityType)
    (payload : Bag) : List Value :=
  propertyValues model payload ++
    (payloadItems registry levels var model payload).flatMap RelatedItem.values

/-- Whether nothing of a payload is below so many levels: the bags on the last of them have no value
under the key of a relationship. -/
def fits (registry : Registry) : Nat → EntityType → Bag → Bool
  | 0, model, bag => model.relationships.all fun rel => (bag.present? rel.name).isNone
  | levels + 1, model, bag => model.relationships.all fun rel =>
    match bag.present? rel.name, registry.target? rel with
    | some value, some target => (heldItems value).all fun item =>
      match farSide? rel item with
      | some (.map entries) => fits registry levels target entries
      | _ => true
    | _, _ => true

section

variable {registry : Registry} {levels : Nat} {model target : EntityType} {rel : Relationship}
  {bag entries : Bag}

/-- On the last level no relationship has a value. -/
theorem present?_of_fits (h : fits registry 0 model bag) (hrel : rel ∈ model.relationships) :
    bag.present? rel.name = none := by
  have hall := List.all_eq_true.mp h rel hrel
  simpa using hall

/-- What fits so many levels has far bags that fit one level less. -/
theorem fits_far (h : fits registry (levels + 1) model bag) (hrel : rel ∈ model.relationships)
    {value item : Value} (hvalue : bag.present? rel.name = some value)
    (htarget : registry.target? rel = some target) (hitem : item ∈ heldItems value)
    (hside : farSide? rel item = some (.map entries)) : fits registry levels target entries := by
  unfold fits at h
  have hall := List.all_eq_true.mp h rel hrel
  rw [hvalue, htarget] at hall
  have hfar := List.all_eq_true.mp hall item hitem
  rwa [hside] at hfar

end

namespace Cypher

/-- Whether an element of a path is a relationship. -/
def PathElement.isRelationship : PathElement → Bool
  | .node _ => false
  | .relationship _ => true

/-- The variable of a path that is one node. -/
def Path.node? (path : Path) : Option (Option String) :=
  match path.elements with
  | [.node pattern] => some pattern.var
  | _ => none

/-- The variables of the nodes of a draft that stand alone in a path. -/
def Draft.nodes (draft : Draft) : List (Option String) :=
  (draft.statements.flatMap Statement.paths).filterMap Path.node?

/-- The paths of a draft that have a relationship. -/
def Draft.joins (draft : Draft) : List Path :=
  (draft.statements.flatMap Statement.paths).filter fun path =>
    path.elements.any PathElement.isRelationship

/-- From any draft, steps can be taken; they pass these values, each to a fragment, and write nodes
with these variables and these relationships. -/
structure Conserves (steps : List Step) (values : List Value) (nodes : List String)
    (joins : List Path) : Prop where
  values : ((steps.flatMap Step.passed).map Passed.value).Perm values
  marked : ∀ passed ∈ steps.flatMap Step.passed, passed.fragment ≠ none
  writes : ∀ draft : Draft, ∃ after, draft.run steps = .ok after ∧
    after.nodes.Perm (draft.nodes ++ nodes.map patternVar) ∧ after.joins = draft.joins ++ joins

variable {steps more : List Step} {values others : List Value} {nodes vars : List String}
  {joins later : List Path}

/-- No steps conserve nothing. -/
theorem conserves_nil : Conserves [] [] [] [] :=
  ⟨.refl _, by simp, fun draft => ⟨draft, rfl, by simp, by simp⟩⟩

/-- Steps one after the other conserve what each of them do. -/
theorem Conserves.append (h : Conserves steps values nodes joins)
    (hmore : Conserves more others vars later) :
    Conserves (steps ++ more) (values ++ others) (nodes ++ vars) (joins ++ later) := by
  refine ⟨?_, ?_, fun draft => ?_⟩
  · rw [List.flatMap_append, List.map_append]
    exact h.values.append hmore.values
  · intro passed hpassed
    rw [List.flatMap_append, List.mem_append] at hpassed
    exact hpassed.elim (h.marked passed) (hmore.marked passed)
  · obtain ⟨mid, hrun, hnodes, hjoins⟩ := h.writes draft
    obtain ⟨after, hrun', hnodes', hjoins'⟩ := hmore.writes mid
    refine ⟨after, run_append_eq_ok hrun hrun', ?_, by rw [hjoins', hjoins, List.append_assoc]⟩
    rw [List.map_append, ← List.append_assoc]
    exact hnodes'.trans (hnodes.append_right _)

/-- In which order values and nodes are counted does not matter. -/
theorem Conserves.perm (h : Conserves steps values nodes joins) (hvalues : values.Perm others)
    (hnodes : nodes.Perm vars) : Conserves steps others vars joins := by
  refine ⟨h.values.trans hvalues, h.marked, fun draft => ?_⟩
  obtain ⟨after, hrun, hafter, hjoins⟩ := h.writes draft
  exact ⟨after, hrun, hafter.trans ((hnodes.map patternVar).append_left _), hjoins⟩

section

variable {draft after : Draft} {closed : List Statement} {paths : List Path}

/-- A statement that is opened adds its paths to those of the draft. -/
theorem writes_of_opened (h : after.Opened draft.statements (·.paths = paths)) :
    after.nodes = draft.nodes ++ paths.filterMap Path.node? ∧
      after.joins = draft.joins ++
        paths.filter fun path => path.elements.any PathElement.isRelationship := by
  obtain ⟨hclosed, s, hcurrent, hpaths⟩ := h
  simp [Draft.nodes, Draft.joins, Draft.statements, hclosed, hcurrent, hpaths]

/-- A statement that is started has one path, which is a node with the variable. -/
theorem exists_step_start (draft : Draft) (verb : Verb) (var : String) (labels : List String)
    (properties : Bag) :
    ∃ after node, draft.step (.start verb var labels properties) = .ok after ∧
      node.var = patternVar var ∧
      after.Opened draft.statements (·.paths = [⟨[.node node]⟩]) := by
  obtain ⟨hclosed, hcurrent⟩ := addProperties_keeps draft var properties
  refine ⟨_, _, rfl, rfl, ?_, _, rfl, rfl⟩
  simp [Draft.openStatement, Draft.statements, hclosed, hcurrent]

/-- A statement with one path, which is a node, writes that node. -/
theorem writes_node {node : NodePattern} {var : String} (hnode : node.var = patternVar var)
    (h : after.Opened draft.statements (·.paths = [⟨[.node node]⟩])) :
    after.nodes.Perm (draft.nodes ++ [var].map patternVar) ∧
      after.joins = draft.joins ++ [] := by
  obtain ⟨hnodes, hjoins⟩ := writes_of_opened h
  rw [hnodes, hjoins]
  simp [Path.node?, PathElement.isRelationship, hnode]

end

/-- To take variables over conserves nothing. -/
theorem conserves_carry (vars : List String) : Conserves [.carry vars] [] [] [] := by
  refine ⟨.refl _, by simp [Step.passed], fun draft => ⟨_, rfl, ?_, ?_⟩⟩
  · simp [Draft.nodes, Draft.statements, Draft.openStatement]
  · simp [Draft.joins, Draft.statements, Draft.openStatement]

/-- The values that properties of a node pass. -/
theorem values_ofProperties (properties : Bag) :
    (Passed.ofProperties properties).map Passed.value = properties.nonNull.map Prod.snd := by
  simp [Passed.ofProperties]

/-- A step that passes one value, to a fragment, and leaves the paths of the open statement. -/
structure Assigns (step : Step) (value : Value) : Prop where
  passed : ∃ fragment, step.passed = [⟨some fragment, value⟩]
  keeps : ∀ {draft : Draft} {closed : List Statement} {paths : List Path},
    draft.Opened closed (·.paths = paths) →
    ∃ after, draft.step step = .ok after ∧ after.Opened closed (·.paths = paths)

/-- To set a value is such a step. -/
theorem assigns_set (target : String) (value : Value) : Assigns (.set target value) value := by
  refine ⟨⟨_, rfl⟩, fun hopened => ?_⟩
  simp only [Draft.step]
  exact modifyWith_opened _ _ (fun name s hs => by exact hs) hopened

/-- To set a value on creation is such a step. -/
theorem assigns_onCreateSet (target : String) (value : Value) :
    Assigns (.onCreateSet target value) value := by
  refine ⟨⟨_, rfl⟩, fun hopened => ?_⟩
  simp only [Draft.step]
  exact modifyWith_opened _ _ (fun name s hs => by exact hs) hopened

/-- Steps that pass these values, each to a fragment, and leave the paths of the open statement. -/
structure AssignsAll (steps : List Step) (values : List Value) : Prop where
  values : (steps.flatMap Step.passed).map Passed.value = values
  marked : ∀ passed ∈ steps.flatMap Step.passed, passed.fragment ≠ none
  keeps : ∀ {draft : Draft} {closed : List Statement} {paths : List Path},
    draft.Opened closed (·.paths = paths) →
    ∃ after, draft.run steps = .ok after ∧ after.Opened closed (·.paths = paths)

/-- Steps for the entries of a bag pass their values. -/
theorem assignsAll_map {assign : String × Value → Step}
    (h : ∀ entry, Assigns (assign entry) entry.2) (properties : Bag) :
    AssignsAll (properties.map assign) (properties.map Prod.snd) where
  values := by
    induction properties with
    | nil => rfl
    | cons entry rest ih =>
      obtain ⟨fragment, hpassed⟩ := (h entry).passed
      rw [List.map_cons, List.flatMap_cons, List.map_append, hpassed, ih]
      rfl
  marked := by
    intro passed hpassed
    obtain ⟨step, hstep, hpassed⟩ := List.mem_flatMap.mp hpassed
    obtain ⟨entry, -, rfl⟩ := List.mem_map.mp hstep
    obtain ⟨fragment, heq⟩ := (h entry).passed
    rw [heq] at hpassed
    obtain rfl := List.mem_singleton.mp hpassed
    simp
  keeps := by
    intro draft closed paths hopened
    refine foldlM_keeps (fun step hstep state hstate => ?_) hopened
    obtain ⟨entry, -, rfl⟩ := List.mem_map.mp hstep
    exact (h entry).keeps hstate

/-- To set properties passes their values. -/
theorem assignsAll_setProperties (var : String) (properties : Bag) :
    AssignsAll (Step.setProperties var properties) (properties.map Prod.snd) :=
  assignsAll_map (fun _ => assigns_set _ _) properties

/-- To set properties on creation passes their values. -/
theorem assignsAll_createProperties (var : String) (properties : Bag) :
    AssignsAll (Step.createProperties var properties) (properties.map Prod.snd) :=
  assignsAll_map (fun _ => assigns_onCreateSet _ _) properties

/-- The steps that write an entity conserve its three parts. -/
theorem conserves_entity (verb : Verb) (var : String) (labels : List String)
    (inline onCreate set : Bag) :
    Conserves (.start verb var labels inline
      :: Step.createProperties var onCreate ++ Step.setProperties var set)
      ((inline.nonNull ++ onCreate ++ set).map Prod.snd) [var] [] := by
  have hcreates := assignsAll_createProperties var onCreate
  have hsets := assignsAll_setProperties var set
  refine ⟨?_, ?_, fun draft => ?_⟩
  · simp [Step.passed, values_ofProperties, hcreates.values, hsets.values]
  · intro passed hpassed
    rw [List.cons_append, List.flatMap_cons, List.flatMap_append, List.mem_append,
      List.mem_append] at hpassed
    rcases hpassed with hpassed | hpassed | hpassed
    · obtain ⟨entry, -, rfl⟩ := List.mem_map.mp hpassed
      simp
    · exact hcreates.marked passed hpassed
    · exact hsets.marked passed hpassed
  · obtain ⟨started, node, hstart, hnode, hstarted⟩ :=
      exists_step_start draft verb var labels inline
    obtain ⟨created, hcreate, hcreated⟩ := hcreates.keeps hstarted
    obtain ⟨after, hset, hafter⟩ := hsets.keeps hcreated
    exact ⟨after, run_cons_eq_ok hstart (run_append_eq_ok hcreate hset), writes_node hnode hafter⟩

/-- The steps that find an entity conserve its identity. -/
theorem conserves_found (var : String) (identity : Identity) :
    Conserves [.start .find var [] [], .whereId var identity] [.int identity] [var] [] := by
  refine ⟨.refl _, by simp [Step.passed, Passed.ofProperties, Bag.nonNull], fun draft => ?_⟩
  obtain ⟨started, node, hstart, hnode, hstarted⟩ := exists_step_start draft .find var [] []
  obtain ⟨after, hwhere, hafter⟩ : ∃ after, started.step (.whereId var identity) = .ok after ∧
      after.Opened draft.statements (·.paths = [⟨[.node node]⟩]) := by
    simp only [Draft.step]
    exact modifyWith_opened _ _ (fun name s hs => by exact hs) hstarted
  exact ⟨after, run_cons_eq_ok hstart (run_cons_eq_ok hwhere rfl), writes_node hnode hafter⟩

/-- The steps that join two entities write their relationship and conserve its properties. -/
theorem conserves_link (verb : Verb) (near far var type : String) (direction : Direction)
    (properties : Bag) :
    Conserves ([.start verb near [] [], .relationship (some var) [type] direction none,
      .to far [] []] ++ Step.setProperties var properties) (properties.map Prod.snd) []
      [⟨[.node (.ofVar near), .relationship ⟨some var, [type], direction, none⟩,
        .node (.ofVar far)]⟩] := by
  have hsets := assignsAll_setProperties var properties
  refine ⟨?_, ?_, fun draft => ?_⟩
  · rw [List.flatMap_append, List.map_append, hsets.values]
    exact .refl _
  · intro passed hpassed
    rw [List.flatMap_append, List.mem_append] at hpassed
    rcases hpassed with hpassed | hpassed
    · simp [Step.passed, Passed.ofProperties, Bag.nonNull] at hpassed
    · exact hsets.marked passed hpassed
  · -- The path grows from the node of the near end, element by element.
    obtain ⟨started, hstart, hclosed, hcurrent⟩ :
        ∃ started, draft.step (.start verb near [] []) = .ok started ∧
          started.closed = draft.statements ∧
          started.current = some (pathStatement verb [.node (.ofVar near)]) :=
      ⟨_, rfl, rfl, rfl⟩
    obtain ⟨joined, hjoin, hclosed, hcurrent⟩ := extendPath_pathStatement
      (.relationship ⟨some var, [type], direction, none⟩) hclosed hcurrent
    obtain ⟨ended, hend, hclosed, hcurrent⟩ := extendPath_pathStatement
      (.node (.ofVar far)) hclosed hcurrent
    have hto : joined.step (.to far [] []) = .ok ended := hend
    obtain ⟨after, hset, hafter⟩ := hsets.keeps ⟨hclosed, _, hcurrent, rfl⟩
    refine ⟨after, run_cons_eq_ok hstart (run_cons_eq_ok hjoin (run_cons_eq_ok hto hset)), ?_⟩
    obtain ⟨hnodes, hjoins⟩ := writes_of_opened hafter
    exact ⟨List.Perm.of_eq hnodes, hjoins⟩

end Cypher

section

variable {registry : Registry} {limit : WriteLimit} {levels : Nat} {mode : WriteMode}
  {var : String} {model target : EntityType} {rel : Relationship} {bag : Bag} {plan : WritePlan}
  {scope : List String}

/-- The steps that write an entity conserve the declared properties of its bag. -/
theorem conserves_split (verb : Verb) (var : String) (labels : List String) (mode : WriteMode)
    (model : EntityType) (bag : Bag) :
    Conserves (.start verb var labels (splitProperties mode model bag).inline
      :: Step.createProperties var (splitProperties mode model bag).onCreate
      ++ Step.setProperties var (splitProperties mode model bag).set)
      (propertyValues model bag) [var] [] := by
  have hinline : (splitProperties mode model bag).inline.nonNull =
      (splitProperties mode model bag).inline := by
    refine List.filter_eq_self.mpr fun entry hentry => ?_
    rw [@isNull_of_mem_split mode model bag .inline entry hentry]
    rfl
  have hvalues : (declaredEntries model bag).map Prod.snd = propertyValues model bag := by
    simp [declaredEntries, propertyValues, List.map_filterMap, Option.map_map, Function.comp_def]
  refine (conserves_entity verb var labels _ _ _).perm ?_ (.refl _)
  rw [hinline, ← hvalues]
  exact entries_splitProperties.map Prod.snd

/-- Plans of so many levels conserve a payload that fits them. -/
def ConservingPlans (registry : Registry) (limit : WriteLimit) (levels : Nat) : Prop :=
  ∀ {mode : WriteMode} {var : String} {model : EntityType} {bag : Bag} {plan : WritePlan}
    (scope : List String), planNode registry limit levels mode var model bag = .ok plan →
    fits registry levels model bag →
    Conserves (plan.stepsIn scope) (payloadValues registry levels var model bag)
      (var :: (payloadItems registry levels var model bag).map RelatedItem.far)
      ((payloadItems registry levels var model bag).map RelatedItem.path)

/-- The steps that write one link of the entity with the given variable. -/
def WriteLink.stepsIn (verb : Verb) (var : String) (scope : List String) : WriteLink → List Step
  | .mk _ type direction relVar properties target =>
    .carry scope :: target.steps scope
      ++ ([.start verb var [] [], .relationship (some relVar) [type] direction none,
        .to target.var [] []] ++ Step.setProperties relVar properties)

/-- Links are written one after the other. -/
theorem linkSteps_eq (verb : Verb) (var : String) (scope : List String) (links : List WriteLink) :
    linkSteps verb var scope links = links.flatMap (WriteLink.stepsIn verb var scope) := by
  induction links with
  | nil => rfl
  | cons link rest ih =>
    obtain ⟨name, type, direction, relVar, properties, target⟩ := link
    simp [linkSteps, WriteLink.stepsIn, ih]

/-- What is planned for a far side conserves it, with the items below it. -/
theorem plannedFar_conserves (ih : ConservingPlans registry limit levels) (scope : List String)
    {item : RelatedItem} {node : Value} {far : WriteTarget}
    (hside : farSide? item.rel item.value = some node)
    (h : PlannedFar registry limit levels item.target item.far node far)
    (hfits : ∀ entries, node = .map entries → fits registry levels item.target entries) :
    ∃ below, item.withNested (payloadItems registry levels) = below ++ [item] ∧
      far.var = item.far ∧
      Conserves (far.steps scope) (below.flatMap RelatedItem.values ++ item.farValues)
        ((below ++ [item]).map RelatedItem.far) (below.map RelatedItem.path) := by
  cases h with
  | existing identity labels properties =>
    refine ⟨[], by simp [RelatedItem.withNested, hside], rfl, ?_⟩
    simpa [RelatedItem.farValues, hside, WriteTarget.steps] using conserves_found item.far identity
  | nested entries plan hplan =>
    refine ⟨payloadItems registry levels item.far item.target entries,
      by simp [RelatedItem.withNested, hside], planNode_var hplan, ?_⟩
    simp only [RelatedItem.farValues, hside]
    rw [List.map_append]
    exact (ih scope hplan (hfits entries rfl)).perm List.perm_append_comm
      (List.perm_append_singleton _ _).symm
  | reference value key hscalar hkey =>
    -- A scalar is neither a node nor a bag, and not null.
    have hvalues : item.farValues = [node] := by
      cases node <;> simp_all [RelatedItem.farValues, Value.isScalar]
    have hnested : item.withNested (payloadItems registry levels) = [item] := by
      cases node <;> simp_all [RelatedItem.withNested, Value.isScalar]
    have hpassed : Bag.nonNull [(key, node)] = [(key, node)] := by
      cases node <;> simp_all [Bag.nonNull, Value.isNull, Value.isScalar]
    have hmerge := conserves_entity .merge item.far item.target.labels [(key, node)] [] []
    refine ⟨[], by rw [hnested, List.nil_append], rfl, ?_⟩
    rw [hpassed] at hmerge
    rw [hvalues]
    exact hmerge

/-- An item is split into its far side and the properties of its relationship. -/
theorem relationshipValues_of_splitItem {item : RelatedItem} {node : Value} {properties : Bag}
    (h : splitItem model item.rel item.value = .ok (node, properties)) :
    item.relationshipValues = properties.map Prod.snd := by
  unfold splitItem at h
  unfold RelatedItem.relationshipValues
  by_cases hshape : item.rel.shape.isRelationship = true
  · rw [if_pos hshape] at h ⊢
    cases hvalue : item.value with
    | map entries =>
      rw [hvalue] at h
      dsimp only at h
      split at h
      · cases h
        simp [linkProperties, Bag.nonNull, List.filter_filter]
      · cases h
    | _ =>
      rw [hvalue] at h
      cases h
  · rw [if_neg hshape] at h ⊢
    cases h
    rfl

/-- What is planned for an item conserves it, with the items below it. -/
theorem plannedLink_conserves (ih : ConservingPlans registry limit levels) (verb : Verb)
    (scope : List String) {item : Value × Nat} {link : WriteLink}
    (h : PlannedLink registry limit levels var model rel target item link)
    (hfits : ∀ entries, farSide? rel item.1 = some (.map entries) →
      fits registry levels target entries) :
    Conserves (link.stepsIn verb var scope)
      ((RelatedItem.withNested (payloadItems registry levels)
        ⟨var, rel, target, item.1, item.2⟩).flatMap RelatedItem.values)
      ((RelatedItem.withNested (payloadItems registry levels)
        ⟨var, rel, target, item.1, item.2⟩).map RelatedItem.far)
      ((RelatedItem.withNested (payloadItems registry levels)
        ⟨var, rel, target, item.1, item.2⟩).map RelatedItem.path) := by
  obtain ⟨node, properties, far, hsplit, hfar, rfl⟩ := h
  have hside : farSide? rel item.1 = some node := farSide?_eq_some.mpr ⟨properties, hsplit⟩
  obtain ⟨below, hnested, hfarVar, hobtained⟩ :=
    @plannedFar_conserves registry limit levels ih scope ⟨var, rel, target, item.1, item.2⟩ node far
      hside hfar fun entries hentries => hfits entries (hentries ▸ hside)
  rw [hnested]
  have hlink := conserves_link verb var far.var (linkVar var rel item.2) rel.type
    rel.direction.forWriting properties
  have hall := ((conserves_carry scope).append hobtained).append hlink
  have hproperties := @relationshipValues_of_splitItem model ⟨var, rel, target, item.1, item.2⟩ node
    properties hsplit
  rw [hfarVar, ← hproperties] at hall
  simpa [WriteLink.stepsIn, RelatedItem.values, RelatedItem.path, hfarVar] using hall

/-- What is planned for several items conserves them, with the items below them. -/
theorem plannedLink_conserves_flatMap (ih : ConservingPlans registry limit levels) (verb : Verb)
    (scope : List String) {items : List (Value × Nat)} {links : List WriteLink}
    (h : List.Forall₂ (PlannedLink registry limit levels var model rel target) items links)
    (hfits : ∀ item ∈ items, ∀ entries, farSide? rel item.1 = some (.map entries) →
      fits registry levels target entries) :
    Conserves (linkSteps verb var scope links)
      ((items.flatMap fun item => RelatedItem.withNested (payloadItems registry levels)
        ⟨var, rel, target, item.1, item.2⟩).flatMap RelatedItem.values)
      ((items.flatMap fun item => RelatedItem.withNested (payloadItems registry levels)
        ⟨var, rel, target, item.1, item.2⟩).map RelatedItem.far)
      ((items.flatMap fun item => RelatedItem.withNested (payloadItems registry levels)
        ⟨var, rel, target, item.1, item.2⟩).map RelatedItem.path) := by
  rw [linkSteps_eq]
  induction h with
  | nil => exact conserves_nil
  | @cons item link items links hlink _ ihlinks =>
    have hhead := plannedLink_conserves ih verb scope hlink (hfits item List.mem_cons_self)
    have hrest := ihlinks fun item hitem => hfits item (List.mem_cons_of_mem _ hitem)
    simpa only [List.flatMap_cons, List.flatMap_append, List.map_append] using hhead.append hrest

/-- Where items are planned, they are those that the value holds. -/
theorem relatedItems_of_planned {value : Value} {links : List WriteLink}
    (h : List.Forall₂ (PlannedLink registry limit levels var model rel target)
      (relatedItems rel.shape value).zipIdx links) :
    relatedItems rel.shape value = heldItems value := by
  cases value with
  | list items =>
    cases hcollection : rel.shape.isCollection with
    | true => simp [relatedItems, heldItems, hcollection]
    | false =>
      -- A list where one item belongs is refused as a whole.
      simp only [relatedItems, hcollection, Bool.false_eq_true, if_false, List.zipIdx_cons,
        List.zipIdx_nil] at h
      cases h with
      | cons hlink _ => exact absurd hlink not_plannedLink_list
  | _ => rfl

/-- What is planned for a relationship conserves the items under it. -/
theorem plannedLinks_conserves (ih : ConservingPlans registry limit levels) (verb : Verb)
    (scope : List String) {links : List WriteLink}
    (h : PlannedLinks registry limit levels var model bag rel links)
    (hfits : fits registry (levels + 1) model bag) (hrel : rel ∈ model.relationships) :
    Conserves (linkSteps verb var scope links)
      ((itemsUnder registry (payloadItems registry levels) var bag rel).flatMap
        RelatedItem.values)
      ((itemsUnder registry (payloadItems registry levels) var bag rel).map RelatedItem.far)
      ((itemsUnder registry (payloadItems registry levels) var bag rel).map
        RelatedItem.path) := by
  unfold PlannedLinks at h
  unfold itemsUnder
  cases hvalue : bag.present? rel.name with
  | none =>
    rw [hvalue] at h
    obtain rfl : links = [] := h
    exact conserves_nil
  | some value =>
    rw [hvalue] at h
    obtain ⟨target, htarget, hlinks⟩ := h
    have hitems := relatedItems_of_planned hlinks
    rw [hitems] at hlinks
    rw [htarget]
    refine plannedLink_conserves_flatMap ih verb scope hlinks fun item hitem entries hside => ?_
    exact fits_far hfits hrel hvalue htarget (List.fst_mem_of_mem_zipIdx hitem) hside

/-- What is planned for several relationships conserves the items under them. -/
theorem plannedLinks_conserves_flatten (ih : ConservingPlans registry limit levels) (verb : Verb)
    (scope : List String) {rels : List Relationship} {links : List (List WriteLink)}
    (h : List.Forall₂ (PlannedLinks registry limit levels var model bag) rels links)
    (hfits : fits registry (levels + 1) model bag) (hrels : rels ⊆ model.relationships) :
    Conserves (linkSteps verb var scope links.flatten)
      ((rels.flatMap (itemsUnder registry (payloadItems registry levels) var bag)).flatMap
        RelatedItem.values)
      ((rels.flatMap (itemsUnder registry (payloadItems registry levels) var bag)).map
        RelatedItem.far)
      ((rels.flatMap (itemsUnder registry (payloadItems registry levels) var bag)).map
        RelatedItem.path) := by
  induction h with
  | nil => exact conserves_nil
  | @cons rel planned rels links hplanned _ ihlinks =>
    have hhead := plannedLinks_conserves ih verb scope hplanned hfits (hrels List.mem_cons_self)
    have hrest := ihlinks fun rel hrel => hrels (List.mem_cons_of_mem _ hrel)
    simpa only [linkSteps_eq, List.flatten_cons, List.flatMap_cons, List.flatMap_append,
      List.map_append] using hhead.append hrest

/-- The steps of a plan conserve a payload that fits its levels. -/
theorem planNode_conserves : ConservingPlans registry limit levels := by
  induction levels with
  | zero =>
    intro mode var model bag plan scope h _
    obtain ⟨-, rfl⟩ := planNode_zero_eq_ok.mp h
    have hentity := conserves_split mode.verb var model.labels mode model bag
    simpa [WritePlan.stepsIn, linkSteps, payloadValues, payloadItems] using hentity
  | succ levels ih =>
    intro mode var model bag plan scope h hfits
    obtain ⟨links, hlinks, rfl⟩ := planNode_succ_eq_ok.mp h
    have hentity := conserves_split mode.verb var model.labels mode model bag
    have hrest := plannedLinks_conserves_flatten ih mode.verb (scope ++ [var]) hlinks hfits
      (List.Subset.refl _)
    -- The entity is written first, and then its links, each with what is below it.
    exact hentity.append hrest

/-- A payload that fits so many levels has no items below them. -/
theorem payloadItems_of_fits (hfits : fits registry levels model bag) {more : Nat}
    (hmore : levels ≤ more) :
    payloadItems registry more var model bag = payloadItems registry levels var model bag := by
  induction levels generalizing var model bag more with
  | zero =>
    cases more with
    | zero => rfl
    | succ more =>
      refine List.flatMap_eq_nil_iff.mpr fun rel hrel => ?_
      rw [itemsUnder, present?_of_fits hfits hrel]
  | succ levels ih =>
    obtain ⟨more, rfl⟩ : ∃ fewer, more = fewer + 1 := ⟨more - 1, by omega⟩
    refine List.flatMap_congr fun rel hrel => ?_
    unfold itemsUnder
    cases hvalue : bag.present? rel.name with
    | none => rfl
    | some value =>
      cases htarget : registry.target? rel with
      | none => rfl
      | some target =>
        refine List.flatMap_congr fun item hitem => ?_
        unfold RelatedItem.withNested
        split
        · next entries hside =>
          rw [ih (fits_far hfits hrel hvalue htarget (List.fst_mem_of_mem_zipIdx hitem) hside)
            (by omega)]
        · rfl

/-- A payload is conserved. If it fits the limit of depth and is planned, the steps of the plan
draft a query whose parameters have the values that the payload holds, on however many levels they
are counted. Each of the parameters stands in exactly one fragment. The query writes a node for the
payload and for each item, and beside them exactly one relationship for each item, which joins the
variable of the bag that the item belongs to and the variable of the node of the item. -/
theorem payload_conserved {payload : Bag}
    (hplan : WritePlan.ofPayload registry limit mode var model payload = .ok plan)
    (hfits : fits registry limit.depth model payload) :
    ∃ draft, Draft.run {} plan.steps = .ok draft ∧ ∀ levels, limit.depth ≤ levels →
      (draft.params.map Prod.snd).Perm (payloadValues registry levels var model payload) ∧
      (KeyedList.keys draft.params).Nodup ∧
      draft.names.Perm (KeyedList.keys draft.params) ∧
      draft.nodes.Perm ((var :: (payloadItems registry levels var model payload).map
        RelatedItem.far).map patternVar) ∧
      draft.joins = (payloadItems registry levels var model payload).map RelatedItem.path := by
  have hconserves := planNode_conserves [] hplan hfits
  obtain ⟨draft, hrun, hnodes, hjoins⟩ := hconserves.writes {}
  obtain ⟨bindings, hpassed, hbound, hnodup, hreferences⟩ := exists_bindings hrun
  have hperm : draft.params.Perm (bindings.map Binding.entry) := by simpa using hbound.perm
  have hkeys : (KeyedList.keys draft.params).Perm (bindings.map Binding.name) := by
    simpa [KeyedList.keys, Function.comp_def, Binding.entry] using hperm.map Prod.fst
  -- Every value that a plan passes goes into a fragment, so that no parameter is unused.
  have hmarked : ∀ binding ∈ bindings, binding.fragment ≠ none := by
    intro binding hbinding
    have hmem : binding.toPassed ∈ plan.steps.flatMap Step.passed :=
      hpassed ▸ List.mem_map_of_mem hbinding
    exact hconserves.marked binding.toPassed hmem
  have hvalues : (draft.params.map Prod.snd).Perm
      (payloadValues registry limit.depth var model payload) := by
    have hentries : (bindings.map Binding.entry).map Prod.snd =
        (bindings.map Binding.toPassed).map Passed.value := by
      simp [Binding.entry, Function.comp_def]
    have hbound := hperm.map Prod.snd
    rw [hentries, hpassed] at hbound
    exact hbound.trans hconserves.values
  refine ⟨draft, hrun, fun levels hlevels => ?_⟩
  rw [payloadValues, payloadItems_of_fits hfits hlevels]
  exact ⟨hvalues, hkeys.nodup_iff.mpr hnodup,
    (draft.names_perm hnodup hreferences hmarked).trans hkeys.symm, hnodes, hjoins⟩

end

/-- A team has a team that leads it, which stands under the key, and parts, each since a year. -/
def team : EntityType where
  name := "Team"
  labels := ["Team"]
  properties := [Property.asPrimary { name := "title", type := .string },
    { name := "size", type := .integer }]
  relationships := [
    { name := "lead", shape := .node, type := "LED_BY", direction := .outgoing,
      target := .model "Team" },
    { name := "parts", shape := .relationships, type := "PART_OF", direction := .incoming,
      target := .model "Team", properties := [{ name := "since", type := .integer }] }]
  labels_ne_nil := by decide
  labels_ascending := by decide
  properties_nodup := by decide
  relationships_nodup := by decide
  keys_disjoint := by decide
  primary_le_one := by decide

/-- The registry of teams. -/
def teams : Registry := ⟨[team], by decide⟩

/-- A team with a reference, a live node and a nested team, which refers to another one. -/
def nestedTeam : Bag := [
  ("lead", .string "Core"),
  ("parts", .list [
    .map [("node", .node 7 ["Team"] []), ("since", .int 2019), ("size", .int 0)],
    .map [("node", .map [("lead", .string "Core"), ("size", .null), ("title", .string "Web")])]]),
  ("size", .int 12),
  ("title", .string "All")]

/-- Of nested teams every value is passed once, and each of four relationships is written. -/
theorem nestedTeam_conserved :
    ∃ plan draft,
      WritePlan.ofPayload teams ⟨2, .truncate⟩ .merge "this" team nestedTeam = .ok plan ∧
      Draft.run {} plan.steps = .ok draft ∧
      (draft.params.map Prod.snd).Perm [.string "All", .int 12, .string "Core", .int 7, .int 2019,
        .string "Core", .string "Web"] ∧
      draft.names.Perm (KeyedList.keys draft.params) ∧
      draft.joins.length = 4 := by
  have hplan : ∃ plan, WritePlan.ofPayload teams ⟨2, .truncate⟩ .merge "this" team nestedTeam =
      .ok plan := ⟨_, rfl⟩
  obtain ⟨plan, hplan⟩ := hplan
  obtain ⟨draft, hrun, hconserved⟩ := payload_conserved hplan rfl
  obtain ⟨hvalues, -, hnames, -, hjoins⟩ := hconserved 2 (Nat.le_refl 2)
  refine ⟨plan, draft, hplan, hrun, hvalues, hnames, ?_⟩
  rw [hjoins]
  rfl

end GraphMapper
