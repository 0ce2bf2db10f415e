import GraphMapper.Proofs.Cypher.Drafting
import GraphMapper.Proofs.Cypher.Parameters

/-!
# The table of parameters

A step passes values, and each value is bound to a name of its own. Where the step adds fragments to
a statement, each fragment carries the name of the value that it was made for.

A `Binding` is a value that was passed, the fragment that was made for it and the name it was bound
to. `step_binds` says of a step from any draft which bindings it makes: their values are those that
the step passes, their names were free, and the fragments that are new in the statements are theirs.
`run_binds` says it of steps one after the other. For a whole query it follows that every name in
the statements is bound to the value that was passed for it, and that no name stands in two places
(`params_sound`).
-/

namespace GraphMapper.Cypher

/-- A place of a statement where names of parameters stand. -/
inductive Clause where
  | pattern
  | filter
  | onCreateSet
  | onMatchSet
  | set
  deriving DecidableEq

/-- A fragment of a statement that carries the name of one parameter. A condition with a floor and a
ceiling is two fragments. -/
inductive Fragment where
  | pair (key : String)
  | compare (left : String) (comparison : Comparison) (negated : Bool)
  | floor (expression : String) (negated : Bool)
  | ceiling (expression : String) (negated : Bool)
  | identity (var : String) (negated : Bool)
  | onCreateSet (target : String) (operator : SetOperator)
  | onMatchSet (target : String) (operator : SetOperator)
  | set (target : String) (operator : SetOperator)
  deriving DecidableEq

/-- The place where a fragment stands. -/
def Fragment.clause : Fragment → Clause
  | .pair _ => .pattern
  | .compare .. | .floor .. | .ceiling .. | .identity .. => .filter
  | .onCreateSet .. => .onCreateSet
  | .onMatchSet .. => .onMatchSet
  | .set .. => .set

/-- A fragment and the name that it carries. -/
abbrev Reference : Type := Fragment × String

/-- The fragments of a property pair. -/
def PropertyPair.reference (pair : PropertyPair) : Reference :=
  (.pair pair.key, pair.param)

/-- The fragments of an element of a path. -/
def PathElement.references : PathElement → List Reference
  | .node pattern => pattern.properties.map PropertyPair.reference
  | .relationship _ => []

/-- The fragments of a path. -/
def Path.references (path : Path) : List Reference :=
  path.elements.flatMap PathElement.references

/-- The fragments of a condition, which may be negated. -/
def Condition.references (negated : Bool) : Condition → List Reference
  | .compare left comparison param => [(.compare left comparison negated, param)]
  | .between expression floor ceiling =>
    [(.floor expression negated, floor), (.ceiling expression negated, ceiling)]
  | .identity var param => [(.identity var negated, param)]
  | .raw _ => []

/-- The fragments of a filter. -/
def Filter.references (filter : Filter) : List Reference :=
  filter.groups.flatMap fun group =>
    group.predicates.flatMap fun p => p.condition.references p.negated

/-- The fragments of a SET item. -/
def SetItem.references (fragment : String → SetOperator → Fragment) : SetItem → List Reference
  | .value target operator param => [(fragment target operator, param)]
  | .raw _ => []

/-- The fragments of a statement in one place. -/
def Statement.references (clause : Clause) (s : Statement) : List Reference :=
  match clause with
  | .pattern => s.paths.flatMap Path.references
  | .filter => s.filter.references
  | .onCreateSet => s.onCreateSet.flatMap (SetItem.references .onCreateSet)
  | .onMatchSet => s.onMatchSet.flatMap (SetItem.references .onMatchSet)
  | .set => s.set.flatMap (SetItem.references .set)

/-- The fragments of a draft in one place of its statements. -/
def Draft.references (draft : Draft) (clause : Clause) : List Reference :=
  draft.statements.flatMap (Statement.references clause)

/-- The names that stand anywhere in the statements of a draft. -/
def Draft.names (draft : Draft) : List String :=
  ([.pattern, .filter, .onCreateSet, .onMatchSet, .set].flatMap draft.references).map Prod.snd

/-- A value that a step passes, with the fragment that is made for it. For a parameter that is bound
on its own no fragment is made. -/
structure Passed where
  fragment : Option Fragment
  value : Value

/-- The values that a node pattern passes: those of its properties that are not null. -/
def Passed.ofProperties (properties : Bag) : List Passed :=
  properties.nonNull.map fun entry => ⟨some (.pair entry.1), entry.2⟩

/-- The values that a step passes. -/
def Step.passed : Step → List Passed
  | .param _ value => [⟨none, value⟩]
  | .start _ _ _ properties | .to _ _ properties => Passed.ofProperties properties
  | .whereCompare left comparison value negated =>
    [⟨some (.compare left comparison negated), value⟩]
  | .whereBetween expression floor ceiling =>
    [⟨some (.floor expression false), floor⟩, ⟨some (.ceiling expression false), ceiling⟩]
  | .whereId var identity => [⟨some (.identity var false), .int identity⟩]
  | .set target value => [⟨some (.set target .assign), value⟩]
  | .setMerge var properties => [⟨some (.set var .merge), .map properties⟩]
  | .onCreateSet target value => [⟨some (.onCreateSet target .assign), value⟩]
  | .onMatchSet target value => [⟨some (.onMatchSet target .assign), value⟩]
  | _ => []

/-- A value that was passed, and the name it was bound to. -/
structure Binding extends Passed where
  name : String

namespace Binding

/-- The entry in the table of parameters. -/
def entry (binding : Binding) : String × Value :=
  (binding.name, binding.value)

/-- The fragment with its name, if it stands in the given place. -/
def reference? (clause : Clause) (binding : Binding) : Option Reference :=
  match binding.fragment with
  | some fragment => if fragment.clause = clause then some (fragment, binding.name) else none
  | none => none

/-- A fragment stands in its place with the name of the value that was passed for it. -/
theorem reference?_eq_some {clause : Clause} {binding : Binding} {reference : Reference} :
    binding.reference? clause = some reference ↔
      ∃ fragment, binding.fragment = some fragment ∧ fragment.clause = clause ∧
        (fragment, binding.name) = reference := by
  unfold reference?
  cases binding.fragment with
  | none => simp
  | some fragment => simp

end Binding

/-- A table with bindings added to it one after the other, each under a name that was free. -/
inductive Bound : Bag → List Binding → Bag → Prop
  | nil (params : Bag) : Bound params [] params
  | cons {params after : Bag} {rest : List Binding} (binding : Binding)
      (free : binding.name ∉ KeyedList.keys params) (plain : isIdentifier binding.name.toList)
      (more : Bound (KeyedList.put params binding.name binding.value) rest after) :
      Bound params (binding :: rest) after

/-- What comes of a draft by bindings: the table has them added, and the statements have the
fragments that were made for them behind those that they had. -/
structure Binds (before : Draft) (bindings : List Binding) (after : Draft) : Prop where
  params : Bound before.params bindings after.params
  references : ∀ clause, after.references clause =
    before.references clause ++ bindings.filterMap (Binding.reference? clause)

namespace Bound

variable {params mid after : Bag} {bindings more : List Binding}

/-- Bindings may be added in two parts. -/
theorem append (h : Bound params bindings mid) (hmore : Bound mid more after) :
    Bound params (bindings ++ more) after := by
  induction h with
  | nil => exact hmore
  | cons binding hfree hplain _ ih => exact .cons binding hfree hplain (ih hmore)

/-- What was bound stays bound, to the same value. -/
theorem keeps (h : Bound params bindings after) {key : String} {value : Value}
    (hheld : KeyedList.get? params key = some value) : KeyedList.get? after key = some value := by
  induction h with
  | nil => exact hheld
  | @cons params after rest binding hfree hplain _ ih =>
    apply ih
    have hne : binding.name ≠ key := by
      rintro rfl
      rw [KeyedList.get?_eq_none_iff.mpr hfree] at hheld
      cases hheld
    rw [KeyedList.get?_put, if_neg hne, hheld]

/-- The table has the new entries beside the old ones. -/
theorem perm (h : Bound params bindings after) :
    after.Perm (bindings.map Binding.entry ++ params) := by
  induction h with
  | nil => exact .refl _
  | @cons params after rest binding hfree hplain _ ih =>
    have hput := (KeyedList.put_perm hfree binding.value).append_left (rest.map Binding.entry)
    exact (ih.trans hput).trans List.perm_middle

/-- The new names are distinct from each other and from the old ones. -/
theorem nodup (h : Bound params bindings after) (hparams : (KeyedList.keys params).Nodup) :
    (bindings.map Binding.name ++ KeyedList.keys params).Nodup := by
  induction h with
  | nil => exact hparams
  | @cons params after rest binding hfree hplain _ ih =>
    have hput : (KeyedList.keys (KeyedList.put params binding.name binding.value)).Perm
        (binding.name :: KeyedList.keys params) :=
      (KeyedList.put_perm hfree binding.value).map Prod.fst
    have hnodup := ih (hput.nodup_iff.mpr (List.nodup_cons.mpr ⟨hfree, hparams⟩))
    have hperm := (hput.append_left (rest.map Binding.name)).trans List.perm_middle
    exact hperm.nodup_iff.mp hnodup

/-- What was bound is found under its name. -/
theorem get?_of_mem (h : Bound params bindings after) {binding : Binding}
    (hbinding : binding ∈ bindings) :
    KeyedList.get? after binding.name = some binding.value := by
  induction h with
  | nil => simp at hbinding
  | @cons params after rest other hfree hplain hmore ih =>
    rcases List.mem_cons.mp hbinding with rfl | hbinding
    -- What is bound later is under other names.
    · exact hmore.keeps (by rw [KeyedList.get?_put, if_pos rfl])
    · exact ih hbinding

/-- The new names are plain identifiers. -/
theorem plain (h : Bound params bindings after) :
    ∀ binding ∈ bindings, isIdentifier binding.name.toList := by
  induction h with
  | nil => simp
  | cons binding _ hplain _ ih =>
    intro other hother
    rcases List.mem_cons.mp hother with rfl | hother
    · exact hplain
    · exact ih other hother

end Bound

namespace Binds

variable {before mid after : Draft} {bindings more : List Binding}

/-- Bindings may be made in two parts. -/
theorem append (h : Binds before bindings mid) (hmore : Binds mid more after) :
    Binds before (bindings ++ more) after := by
  refine ⟨h.params.append hmore.params, fun clause => ?_⟩
  rw [hmore.references, h.references, List.filterMap_append, List.append_assoc]

end Binds

section

variable {draft after : Draft} {clause : Clause} {s changed : Statement} {new : List Reference}

/-- A statement that is opened adds its fragments to those of the draft. -/
theorem references_openStatement (draft : Draft) (s : Statement) :
    (draft.openStatement s).references clause =
      draft.references clause ++ s.references clause := by
  simp [Draft.references, Draft.statements, Draft.openStatement]

/-- What a change adds to the open statement, it adds to the draft. -/
theorem references_of_current (hclosed : after.closed = draft.closed)
    (hcurrent : draft.current = some s) (hchanged : after.current = some changed)
    (hnew : changed.references clause = s.references clause ++ new) :
    after.references clause = draft.references clause ++ new := by
  simp [Draft.references, Draft.statements, hclosed, hcurrent, hchanged, hnew]

/-- Drafts with the same statements have the same fragments. -/
theorem references_of_eq (hclosed : after.closed = draft.closed)
    (hcurrent : after.current = draft.current) :
    after.references clause = draft.references clause := by
  simp [Draft.references, Draft.statements, hclosed, hcurrent]

/-- A predicate adds its fragments to those of a filter. -/
theorem references_addFilter (filter : Filter) (p : Predicate) :
    (filter.add p).references = filter.references ++ p.condition.references p.negated := by
  unfold Filter.add
  split
  · next hnone =>
    have hempty : filter.groups = [] := List.getLast?_eq_none_iff.mp hnone
    simp [Filter.references, hempty]
  · next group hgroup =>
    have hgroups : filter.groups = filter.groups.dropLast ++ [group] :=
      (List.dropLast_append_getLast? group hgroup).symm
    conv_rhs => rw [Filter.references, hgroups]
    simp [Filter.references]

/-- A predicate adds its fragments to those of a statement. -/
theorem references_addPredicate (condition : Condition) (negated : Bool) (s : Statement) :
    (Draft.addPredicate condition negated s).references clause = s.references clause ++
      (if clause = .filter then condition.references negated else []) := by
  cases clause <;> simp [Draft.addPredicate, Statement.references, references_addFilter]

/-- A change of the open statement by no value, which adds no fragment, binds nothing. -/
theorem modify_binds {change : Statement → Statement} (h : draft.modify change = .ok after)
    (hchange : ∀ s clause, (change s).references clause = s.references clause) :
    Binds draft [] after := by
  unfold Draft.modify at h
  split at h
  · next s hcurrent =>
    cases h
    refine ⟨.nil _, fun clause => ?_⟩
    exact references_of_current rfl hcurrent rfl (by simp [hchange])
  · cases h

/-- A value is bound to its name. -/
theorem bound_addParam (draft : Draft) (base : String) (value : Value)
    (fragment : Option Fragment) :
    Bound draft.params [⟨⟨fragment, value⟩, (draft.addParam base value).1⟩]
      (draft.addParam base value).2.params :=
  .cons _ (draft.addParam_not_mem base value) (draft.isIdentifier_addParam base value) (.nil _)

/-- The open statement is changed by the name that the value is bound to. -/
theorem exists_of_modifyWith {base : String} {value : Value}
    {change : String → Statement → Statement} (h : draft.modifyWith base value change = .ok after) :
    ∃ s, draft.current = some s ∧ after = { (draft.addParam base value).2 with
      current := some (change (draft.addParam base value).1 s) } := by
  unfold Draft.modifyWith at h
  split at h
  · next s hcurrent =>
    simp only [Draft.addParam, Draft.modify, hcurrent] at h
    cases h
    exact ⟨s, hcurrent, rfl⟩
  · cases h

/-- A change of the open statement by a value binds the value, if the fragment is what it adds. -/
theorem modifyWith_binds {base : String} {value : Value} {change : String → Statement → Statement}
    (h : draft.modifyWith base value change = .ok after) (fragment : Fragment)
    (hchange : ∀ name s clause, (change name s).references clause = s.references clause ++
      (if clause = fragment.clause then [(fragment, name)] else [])) :
    ∃ bindings, bindings.map Binding.toPassed = [⟨some fragment, value⟩] ∧
      Binds draft bindings after := by
  obtain ⟨s, hcurrent, rfl⟩ := exists_of_modifyWith h
  have hbound := bound_addParam draft base value (some fragment)
  refine ⟨_, rfl, hbound, fun clause => references_of_current rfl hcurrent rfl ?_⟩
  rw [hchange]
  by_cases hclause : clause = fragment.clause
  · simp [Binding.reference?, hclause]
  · simp [Binding.reference?, hclause, Ne.symm hclause]

/-- The properties of a node pattern are bound, and the pairs carry their names. -/
theorem bound_addProperties (draft : Draft) (var : String) (properties : Bag) :
    ∃ bindings, bindings.map Binding.toPassed = Passed.ofProperties properties ∧
      Bound draft.params bindings (draft.addProperties var properties).2.params ∧
      ∀ clause, bindings.filterMap (Binding.reference? clause) =
        if clause = .pattern then
          (draft.addProperties var properties).1.map PropertyPair.reference
        else [] := by
  induction properties generalizing draft with
  | nil => exact ⟨[], rfl, .nil _, fun clause => by simp [Draft.addProperties]⟩
  | cons entry rest ih =>
    obtain ⟨key, value⟩ := entry
    simp only [Draft.addProperties]
    cases hnull : value.isNull with
    | true =>
      obtain ⟨bindings, hpassed, hbound, hreferences⟩ := ih draft
      refine ⟨bindings, ?_, by simpa using hbound, by simpa using hreferences⟩
      rw [hpassed]
      simp [Passed.ofProperties, Bag.nonNull, hnull]
    | false =>
      have hhead := bound_addParam draft (var ++ "_" ++ key) value (some (.pair key))
      obtain ⟨bindings, hpassed, hbound, hreferences⟩ :=
        ih (draft.addParam (var ++ "_" ++ key) value).2
      refine ⟨_ :: bindings, ?_, by simpa using hhead.append hbound, fun clause => ?_⟩
      · rw [List.map_cons, hpassed]
        simp [Passed.ofProperties, Bag.nonNull, hnull]
      · rw [List.filterMap_cons, hreferences]
        cases clause <;> simp [Binding.reference?, Fragment.clause, PropertyPair.reference]

/-- A node pattern binds its properties, and the fragments are those of the pattern. -/
theorem bound_nodePattern {mid : Draft} {var : String} {labels : List String} {properties : Bag}
    {node : NodePattern} (h : draft.nodePattern var labels properties = (node, mid)) :
    ∃ bindings, bindings.map Binding.toPassed = Passed.ofProperties properties ∧
      Bound draft.params bindings mid.params ∧
      ∀ clause, draft.references clause ++ bindings.filterMap (Binding.reference? clause) =
        mid.references clause ++
          (if clause = .pattern then (PathElement.node node).references else []) := by
  obtain ⟨bindings, hpassed, hbound, hreferences⟩ := bound_addProperties draft var properties
  obtain ⟨hclosed, hcurrent⟩ := addProperties_keeps draft var properties
  cases h
  refine ⟨bindings, hpassed, hbound, fun clause => ?_⟩
  rw [references_of_eq hclosed hcurrent, hreferences]
  rfl

/-- An element that is appended to the last path adds its fragments. -/
theorem references_extendPath {element : PathElement}
    (h : draft.extendPath element = .ok after) :
    after.params = draft.params ∧ ∀ clause, after.references clause = draft.references clause ++
      (if clause = .pattern then element.references else []) := by
  unfold Draft.extendPath at h
  split at h
  · cases h
  · next s hcurrent =>
    split at h
    · cases h
    · next path hpath =>
      cases h
      refine ⟨rfl, fun clause => references_of_current rfl hcurrent rfl ?_⟩
      have hpaths : s.paths = s.paths.dropLast ++ [path] :=
        (List.dropLast_append_getLast? path hpath).symm
      cases clause
      case pattern =>
        simp only [Statement.references, if_true]
        conv_rhs => rw [hpaths]
        simp [Path.references]
      all_goals simp [Statement.references]

/-- A pattern that is opened binds the properties of its node. -/
theorem start_binds {verb : Verb} {var : String} {labels : List String} {properties : Bag}
    (h : draft.step (.start verb var labels properties) = .ok after) :
    ∃ bindings, bindings.map Binding.toPassed = Passed.ofProperties properties ∧
      Binds draft bindings after := by
  cases hnode : draft.nodePattern var labels properties with
  | mk node mid =>
    obtain ⟨bindings, hpassed, hbound, hreferences⟩ := bound_nodePattern hnode
    simp only [Draft.step, hnode] at h
    cases h
    refine ⟨bindings, hpassed, hbound, fun clause => ?_⟩
    rw [references_openStatement, hreferences]
    cases clause <;> simp [Statement.references, Path.references, Filter.references]

/-- A path that is extended to a node binds the properties of the node. -/
theorem to_binds {var : String} {labels : List String} {properties : Bag}
    (h : draft.step (.to var labels properties) = .ok after) :
    ∃ bindings, bindings.map Binding.toPassed = Passed.ofProperties properties ∧
      Binds draft bindings after := by
  cases hnode : draft.nodePattern var labels properties with
  | mk node mid =>
    obtain ⟨bindings, hpassed, hbound, hreferences⟩ := bound_nodePattern hnode
    simp only [Draft.step, hnode] at h
    obtain ⟨hparams, hextended⟩ := references_extendPath h
    refine ⟨bindings, hpassed, hparams ▸ hbound, fun clause => ?_⟩
    rw [hextended, hreferences]

/-- A range binds its two ends. -/
theorem whereBetween_binds {expression : String} {floor ceiling : Value}
    (h : draft.step (.whereBetween expression floor ceiling) = .ok after) :
    ∃ bindings, bindings.map Binding.toPassed =
        (Step.whereBetween expression floor ceiling).passed ∧
      Binds draft bindings after := by
  simp only [Draft.step] at h
  split at h
  · cases h
  · -- Two values are bound, before one predicate carries the names of both.
    have hfloor := bound_addParam draft ("where_" ++ expression ++ "_floor") floor
      (some (.floor expression false))
    have hceiling := bound_addParam (draft.addParam ("where_" ++ expression ++ "_floor") floor).2
      ("where_" ++ expression ++ "_ceiling") ceiling (some (.ceiling expression false))
    obtain ⟨s, hcurrent, rfl⟩ := exists_of_modifyWith h
    refine ⟨_, ?_, hfloor.append hceiling, fun clause => ?_⟩
    · rfl
    · refine references_of_current rfl hcurrent rfl ?_
      rw [references_addPredicate]
      cases clause <;> simp [Binding.reference?, Fragment.clause, Condition.references]

end

/-- A step binds the values that it passes. -/
theorem step_binds {draft after : Draft} {step : Step} (h : draft.step step = .ok after) :
    ∃ bindings, bindings.map Binding.toPassed = step.passed ∧ Binds draft bindings after := by
  cases step with
  | param base value =>
    cases h
    refine ⟨_, rfl, bound_addParam draft base value none, fun clause => ?_⟩
    have hsame : (draft.addParam base value).2.references clause = draft.references clause :=
      references_of_eq rfl rfl
    rw [hsame, List.filterMap_cons_none rfl, List.filterMap_nil, List.append_nil]
  | start verb var labels properties => exact start_binds h
  | andNode var labels =>
    refine ⟨[], rfl, modify_binds h fun s clause => ?_⟩
    cases clause <;> simp [Statement.references, Path.references, PathElement.references]
  | carry vars =>
    cases h
    refine ⟨[], rfl, .nil _, fun clause => ?_⟩
    rw [references_openStatement]
    cases clause <;> rfl
  | relationship var types direction hops =>
    obtain ⟨hparams, hreferences⟩ := references_extendPath h
    refine ⟨[], rfl, hparams ▸ .nil _, fun clause => ?_⟩
    rw [hreferences]
    simp [PathElement.references]
  | «to» var labels properties => exact to_binds h
  | whereCompare left comparison value negated =>
    rw [Draft.step] at h
    exact modifyWith_binds h (.compare left comparison negated) fun name s clause =>
      references_addPredicate _ _ s
  | whereBetween expression floor ceiling => exact whereBetween_binds h
  | whereId var identity =>
    rw [Draft.step] at h
    exact modifyWith_binds h (.identity var false) fun name s clause =>
      references_addPredicate _ _ s
  | set target value =>
    rw [Draft.step] at h
    refine modifyWith_binds h (.set target .assign) fun name s clause => ?_
    cases clause <;> simp [Statement.references, SetItem.references, Fragment.clause]
  | setMerge var properties =>
    rw [Draft.step] at h
    refine modifyWith_binds h (.set var .merge) fun name s clause => ?_
    cases clause <;> simp [Statement.references, SetItem.references, Fragment.clause]
  | onCreateSet target value =>
    rw [Draft.step] at h
    refine modifyWith_binds h (.onCreateSet target .assign) fun name s clause => ?_
    cases clause <;> simp [Statement.references, SetItem.references, Fragment.clause]
  | onMatchSet target value =>
    rw [Draft.step] at h
    refine modifyWith_binds h (.onMatchSet target .assign) fun name s clause => ?_
    cases clause <;> simp [Statement.references, SetItem.references, Fragment.clause]
  | whereRaw text =>
    rw [Draft.step] at h
    refine ⟨[], rfl, modify_binds h fun s clause => ?_⟩
    rw [references_addPredicate]
    simp [Condition.references]
  | openGroup join connector =>
    rw [Draft.step] at h
    refine ⟨[], rfl, modify_binds h fun s clause => ?_⟩
    cases clause <;> simp [Statement.references, Filter.references, Filter.openGroup]
  | setRaw text =>
    rw [Draft.step] at h
    refine ⟨[], rfl, modify_binds h fun s clause => ?_⟩
    cases clause <;> simp [Statement.references, SetItem.references]
  -- The steps that are left change sections that hold no names.
  | _ => exact ⟨[], rfl, modify_binds h fun s clause => by cases clause <;> rfl⟩

/-- Steps one after the other bind the values that they pass. -/
theorem run_binds {draft after : Draft} {steps : List Step} (h : draft.run steps = .ok after) :
    ∃ bindings, bindings.map Binding.toPassed = steps.flatMap Step.passed ∧
      Binds draft bindings after := by
  induction steps generalizing draft with
  | nil =>
    cases h
    exact ⟨[], rfl, .nil _, fun clause => by simp⟩
  | cons step rest ih =>
    rw [Draft.run, List.foldlM_cons] at h
    obtain ⟨mid, hmid, h⟩ := bind_eq_ok.mp h
    obtain ⟨bindings, hpassed, hbinds⟩ := step_binds hmid
    obtain ⟨more, hmore, hrest⟩ := ih h
    refine ⟨bindings ++ more, ?_, hbinds.append hrest⟩
    rw [List.map_append, hpassed, hmore, List.flatMap_cons]

/-- In a query that is drafted from nothing, the bindings are all that the table has, their names
are distinct, and the fragments of the statements are theirs. -/
theorem exists_bindings {steps : List Step} {draft : Draft} (h : Draft.run {} steps = .ok draft) :
    ∃ bindings : List Binding, bindings.map Binding.toPassed = steps.flatMap Step.passed ∧
      Bound [] bindings draft.params ∧ (bindings.map Binding.name).Nodup ∧
      ∀ clause, draft.references clause = bindings.filterMap (Binding.reference? clause) := by
  obtain ⟨bindings, hpassed, hbinds⟩ := run_binds h
  refine ⟨bindings, hpassed, hbinds.params, ?_, fun clause => ?_⟩
  · simpa [KeyedList.keys] using hbinds.params.nodup List.nodup_nil
  · rw [hbinds.references]
    rfl

section

variable {bindings : List Binding} (hnodup : (bindings.map Binding.name).Nodup)

include hnodup

/-- Of distinct names, those that stand in one place are distinct. -/
theorem reference?_nodup (clause : Clause) :
    ((bindings.filterMap (Binding.reference? clause)).map Prod.snd).Nodup := by
  refine List.Nodup.sublist ?_ hnodup
  clear hnodup
  induction bindings with
  | nil => exact .slnil
  | cons binding rest ih =>
    rw [List.filterMap_cons, List.map_cons]
    split
    · exact ih.cons _
    · next reference hreference =>
      obtain ⟨fragment, -, -, rfl⟩ := Binding.reference?_eq_some.mp hreference
      exact ih.cons_cons _

/-- Of distinct names, none stands in two places. -/
theorem reference?_disjoint {clause other : Clause} (hne : clause ≠ other) :
    List.Disjoint ((bindings.filterMap (Binding.reference? clause)).map Prod.snd)
      ((bindings.filterMap (Binding.reference? other)).map Prod.snd) := by
  intro name hname hother
  simp only [List.mem_map, List.mem_filterMap, Binding.reference?_eq_some] at hname hother
  obtain ⟨_, ⟨binding, hbinding, fragment, hfragment, rfl, rfl⟩, rfl⟩ := hname
  obtain ⟨_, ⟨binding', hbinding', fragment', hfragment', rfl, rfl⟩, hname⟩ := hother
  -- One name has one binding, and the fragment of that stands in one place.
  obtain rfl : binding' = binding := List.inj_on_of_nodup_map hnodup hbinding' hbinding hname
  rw [hfragment] at hfragment'
  exact hne (congrArg Fragment.clause (Option.some.inj hfragment'))

/-- In a draft whose fragments are those of bindings with distinct names, no name stands twice. -/
theorem Draft.names_nodup {draft : Draft} (hreferences : ∀ clause, draft.references clause =
    bindings.filterMap (Binding.reference? clause)) : draft.names.Nodup := by
  have hclauses : [Clause.pattern, .filter, .onCreateSet, .onMatchSet, .set].Nodup := by decide
  rw [names, List.map_flatMap, List.nodup_flatMap]
  simp only [hreferences]
  exact ⟨fun clause _ => reference?_nodup hnodup clause,
    hclauses.imp fun hne => reference?_disjoint hnodup hne⟩

/-- If moreover each binding has a fragment, the names in the statements are the names bound. -/
theorem Draft.names_perm {draft : Draft} (hreferences : ∀ clause, draft.references clause =
    bindings.filterMap (Binding.reference? clause))
    (hmarked : ∀ binding ∈ bindings, binding.fragment ≠ none) :
    draft.names.Perm (bindings.map Binding.name) := by
  -- Neither has a name twice, so that it is enough to compare their members.
  refine (List.perm_ext_iff_of_nodup (draft.names_nodup hnodup hreferences) hnodup).mpr ?_
  intro name
  simp only [names, hreferences, List.mem_map, List.mem_flatMap, List.mem_filterMap,
    Binding.reference?_eq_some]
  constructor
  · rintro ⟨_, ⟨clause, -, binding, hbinding, fragment, -, -, rfl⟩, rfl⟩
    exact ⟨binding, hbinding, rfl⟩
  · rintro ⟨binding, hbinding, rfl⟩
    obtain ⟨fragment, hfragment⟩ := Option.ne_none_iff_exists'.mp (hmarked binding hbinding)
    refine ⟨_, ⟨fragment.clause, ?_, binding, hbinding, fragment, hfragment, rfl, rfl⟩, rfl⟩
    cases fragment.clause <;> simp

end

/-- Parameters are sound. A name that is bound is a plain identifier that was free, and no step
changes what is bound. In a query that is drafted from nothing, the values that were passed are
bound in their order, each to a name of its own; in every place of the statements stand exactly the
fragments that were made for them, with their names; and no name stands in two places. -/
theorem params_sound :
    (∀ (draft : Draft) base value, isIdentifier (draft.addParam base value).1.toList ∧
      (draft.addParam base value).1 ∉ KeyedList.keys draft.params ∧
      KeyedList.get? (draft.addParam base value).2.params (draft.addParam base value).1 =
        some value) ∧
    (∀ (draft after : Draft) step, draft.step step = .ok after →
      ∀ key value, KeyedList.get? draft.params key = some value →
        KeyedList.get? after.params key = some value) ∧
    ∀ steps draft, Draft.run {} steps = .ok draft →
      ∃ bindings : List Binding, bindings.map Binding.toPassed = steps.flatMap Step.passed ∧
        (∀ binding ∈ bindings, isIdentifier binding.name.toList ∧
          KeyedList.get? draft.params binding.name = some binding.value) ∧
        (∀ clause, draft.references clause =
          bindings.filterMap (Binding.reference? clause)) ∧
        draft.names.Nodup := by
  refine ⟨fun draft base value => ?_, fun draft after step h key value hheld => ?_,
    fun steps draft h => ?_⟩
  · refine ⟨draft.isIdentifier_addParam base value, draft.addParam_not_mem base value, ?_⟩
    rw [Draft.get?_addParam, if_pos rfl]
  · obtain ⟨bindings, -, hbinds⟩ := step_binds h
    exact hbinds.params.keeps hheld
  · obtain ⟨bindings, hpassed, hbound, hnodup, hreferences⟩ := exists_bindings h
    exact ⟨bindings, hpassed, fun binding hbinding =>
      ⟨hbound.plain binding hbinding, hbound.get?_of_mem hbinding⟩, hreferences,
      draft.names_nodup hnodup hreferences⟩

/-- Steps whose texts are reduced to the same names, and to names that others are numbered to. -/
def similarSteps : List Step := [
  .start .find "x" ["Item"] [("2", .int 1), ("a", .null)],
  .param "x" (.int 2),
  .param "x" (.int 3),
  .param "x-2" (.int 4),
  .whereBetween "x.a" (.int 5) (.int 6),
  .set "x.a" (.int 7)]

/-- Similar texts get names of their own, and each fragment carries the name of its own value. -/
theorem similarSteps_sound :
    ∃ (draft : Draft) (bindings : List Binding), Draft.run {} similarSteps = .ok draft ∧
      draft.params = [("set_x_a", .int 7), ("where_x_a_ceiling", .int 6),
        ("where_x_a_floor", .int 5), ("x", .int 2), ("x_2", .int 1), ("x_2_2", .int 4),
        ("x_3", .int 3)] ∧
      draft.references .filter =
        [(.floor "x.a" false, "where_x_a_floor"), (.ceiling "x.a" false, "where_x_a_ceiling")] ∧
      bindings.map Binding.toPassed = similarSteps.flatMap Step.passed ∧
      (∀ clause, draft.references clause = bindings.filterMap (Binding.reference? clause)) ∧
      draft.names.Nodup := by
  have hrun : ∃ draft, Draft.run {} similarSteps = .ok draft ∧
      draft.params = [("set_x_a", .int 7), ("where_x_a_ceiling", .int 6),
        ("where_x_a_floor", .int 5), ("x", .int 2), ("x_2", .int 1), ("x_2_2", .int 4),
        ("x_3", .int 3)] ∧
      draft.references .filter =
        [(.floor "x.a" false, "where_x_a_floor"), (.ceiling "x.a" false, "where_x_a_ceiling")] :=
    ⟨_, rfl, rfl, rfl⟩
  obtain ⟨draft, hrun, hparams, hfilter⟩ := hrun
  obtain ⟨bindings, hpassed, -, hreferences, hnames⟩ := params_sound.2.2 similarSteps draft hrun
  exact ⟨draft, bindings, hrun, hparams, hfilter, hpassed, hreferences, hnames⟩

end GraphMapper.Cypher
