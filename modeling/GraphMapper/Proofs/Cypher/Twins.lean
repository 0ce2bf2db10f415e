import GraphMapper.Proofs.Cypher.Bindings

/-!
# Drafts that differ in values set on creation

Two rows of steps that differ only in values that are set on creation are followed side by side. The
names of parameters depend on the names that are taken and not on any value, so that both rows draft
the same statements and bind the same names (`Twins`), or fail at the same step. What is bound
differs at most under names that stand in items set on creation (`run_twins`).
-/

namespace GraphMapper.Cypher

/-- A step without the value that it sets on creation. -/
def Step.erase : Step → Step
  | .onCreateSet target _ => .onCreateSet target .null
  | step => step

/-- Two drafts have the same statements and bind the same names, and all but the given ones to the
same values. -/
structure Twins (names : List String) (draft other : Draft) : Prop where
  closed : other.closed = draft.closed
  current : other.current = draft.current
  keys : KeyedList.keys other.params = KeyedList.keys draft.params
  values : ∀ key, key ∉ names → KeyedList.get? other.params key = KeyedList.get? draft.params key

/-- Which name is fresh depends on the keys alone. -/
theorem freshName_congr {params others : Bag}
    (h : KeyedList.keys others = KeyedList.keys params) (name : String) :
    freshName others name = freshName params name := by
  have hlength : others.length = params.length := by
    have hkeys := congrArg List.length h
    simpa [KeyedList.keys] using hkeys
  have hhas : ∀ key, KeyedList.has others key = KeyedList.has params key := by
    intro key
    rw [Bool.eq_iff_iff, KeyedList.has, KeyedList.has, KeyedList.isSome_get?_iff,
      KeyedList.isSome_get?_iff, h]
  simp only [freshName, hlength, hhas]

namespace Twins

variable {names : List String} {draft other : Draft}

/-- A draft is its own twin. -/
theorem refl (draft : Draft) : Twins [] draft draft :=
  ⟨rfl, rfl, rfl, fun _ _ => rfl⟩

/-- Twins bind values to the same name. -/
theorem addParam_fst (h : Twins names draft other) (base : String) (value value' : Value) :
    (other.addParam base value').1 = (draft.addParam base value).1 :=
  freshName_congr h.keys _

/-- Twins that bind values stay twins, but for the name if the values differ. -/
theorem addParam (h : Twins names draft other) (base : String) (value value' : Value) :
    Twins ((draft.addParam base value).1 :: names) (draft.addParam base value).2
      (other.addParam base value').2 := by
  have hname := h.addParam_fst base value value'
  have hother : (other.addParam base value').2.params =
      KeyedList.put other.params (draft.addParam base value).1 value' := by
    rw [← hname]
    rfl
  refine ⟨h.closed, h.current, ?_, fun key hkey => ?_⟩
  · rw [hother]
    exact KeyedList.keys_put_congr h.keys value value'
  · rw [List.mem_cons, not_or] at hkey
    rw [Draft.get?_addParam, Draft.get?_addParam, hname, if_neg (Ne.symm hkey.1),
      if_neg (Ne.symm hkey.1), h.values key hkey.2]

/-- Twins that bind the same value stay twins. -/
theorem addParam_same (h : Twins names draft other) (base : String) (value : Value) :
    Twins names (draft.addParam base value).2 (other.addParam base value).2 := by
  obtain ⟨hclosed, hcurrent, hkeys, -⟩ := h.addParam base value value
  refine ⟨hclosed, hcurrent, hkeys, fun key hkey => ?_⟩
  rw [Draft.get?_addParam, Draft.get?_addParam, h.addParam_fst base value value,
    h.values key hkey]

/-- Twins that bind the same properties of a node get the same pairs and stay twins. -/
theorem addProperties (h : Twins names draft other) (var : String) (properties : Bag) :
    (other.addProperties var properties).1 = (draft.addProperties var properties).1 ∧
      Twins names (draft.addProperties var properties).2
        (other.addProperties var properties).2 := by
  induction properties generalizing draft other with
  | nil => exact ⟨rfl, h⟩
  | cons entry rest ih =>
    obtain ⟨key, value⟩ := entry
    simp only [Draft.addProperties]
    cases value.isNull with
    | true => exact ih h
    | false =>
      obtain ⟨hpairs, htwins⟩ := ih (h.addParam_same (var ++ "_" ++ key) value)
      refine ⟨?_, htwins⟩
      rw [if_neg (by simp), if_neg (by simp)]
      exact congrArg₂ List.cons
        (congrArg (PropertyPair.mk key) (h.addParam_fst (var ++ "_" ++ key) value value)) hpairs

/-- Twins with the same new open statement stay twins. -/
theorem openStatement (h : Twins names draft other) (s : Statement) :
    Twins names (draft.openStatement s) (other.openStatement s) := by
  refine ⟨?_, rfl, h.keys, h.values⟩
  simp [Draft.openStatement, h.closed, h.current]

/-- Twins are changed alike in their open statement. -/
theorem modify (h : Twins names draft other) (change : Statement → Statement) :
    SameOutcome (Twins names) (draft.modify change) (other.modify change) := by
  unfold Draft.modify
  rw [h.current]
  split
  · exact .ok ⟨h.closed, rfl, h.keys, h.values⟩
  · exact .error _

/-- Twins are changed alike by values, if they are twins once the values are bound. -/
theorem modifyWith_of_addParam (h : Twins names draft other) {more : List String} {base : String}
    {value value' : Value}
    (hbound : Twins more (draft.addParam base value).2 (other.addParam base value').2)
    (change : String → Statement → Statement) :
    SameOutcome (Twins more) (draft.modifyWith base value change)
      (other.modifyWith base value' change) := by
  unfold Draft.modifyWith
  rw [h.current]
  split
  · change SameOutcome _
      ((draft.addParam base value).2.modify (change (draft.addParam base value).1))
      ((other.addParam base value').2.modify (change (other.addParam base value').1))
    rw [h.addParam_fst base value value']
    exact hbound.modify _
  · exact .error _

/-- Twins are changed alike by values that are bound, but for the name if the values differ. -/
theorem modifyWith (h : Twins names draft other) (base : String) (value value' : Value)
    (change : String → Statement → Statement) :
    SameOutcome (Twins ((draft.addParam base value).1 :: names))
      (draft.modifyWith base value change) (other.modifyWith base value' change) :=
  h.modifyWith_of_addParam (h.addParam base value value') change

/-- Twins are changed alike by a value. -/
theorem modifyWith_same (h : Twins names draft other) (base : String) (value : Value)
    (change : String → Statement → Statement) :
    SameOutcome (Twins names) (draft.modifyWith base value change)
      (other.modifyWith base value change) :=
  h.modifyWith_of_addParam (h.addParam_same base value) change

/-- Twins are extended alike at the end of their last path. -/
theorem extendPath (h : Twins names draft other) (element : PathElement) :
    SameOutcome (Twins names) (draft.extendPath element) (other.extendPath element) := by
  unfold Draft.extendPath
  rw [h.current]
  split
  · exact .error _
  · split
    · exact .error _
    · exact .ok ⟨h.closed, rfl, h.keys, h.values⟩

/-- Twins that take the same step stay twins. -/
theorem step (h : Twins names draft other) (step : Step) :
    SameOutcome (Twins names) (draft.step step) (other.step step) := by
  cases step with
  | param base value => exact .ok (h.addParam_same base value)
  | start verb var labels properties =>
    obtain ⟨hpairs, htwins⟩ := h.addProperties var properties
    simp only [Draft.step, Draft.nodePattern, hpairs]
    exact .ok (htwins.openStatement _)
  | andNode var labels => exact h.modify _
  | carry vars => exact .ok (h.openStatement _)
  | relationship var types direction hops => exact h.extendPath _
  | «to» var labels properties =>
    obtain ⟨hpairs, htwins⟩ := h.addProperties var properties
    simp only [Draft.step, Draft.nodePattern, hpairs]
    exact htwins.extendPath _
  | whereBetween expression floor ceiling =>
    simp only [Draft.step]
    rw [h.current]
    split
    · exact .error _
    · have hfloor := h.addParam_same ("where_" ++ expression ++ "_floor") floor
      rw [h.addParam_fst ("where_" ++ expression ++ "_floor") floor floor]
      exact hfloor.modifyWith_same _ ceiling _
  | whereCompare left comparison value negated =>
    rw [Draft.step, Draft.step]
    exact h.modifyWith_same _ value _
  | whereId var identity =>
    rw [Draft.step, Draft.step]
    exact h.modifyWith_same _ (.int identity) _
  | set target value =>
    rw [Draft.step, Draft.step]
    exact h.modifyWith_same _ value _
  | setMerge var properties =>
    rw [Draft.step, Draft.step]
    exact h.modifyWith_same _ (.map properties) _
  | onCreateSet target value =>
    rw [Draft.step, Draft.step]
    exact h.modifyWith_same _ value _
  | onMatchSet target value =>
    rw [Draft.step, Draft.step]
    exact h.modifyWith_same _ value _
  | _ => exact h.modify _

/-- More names may be allowed to differ. -/
theorem mono (h : Twins names draft other) {more : List String} (hmore : names ⊆ more) :
    Twins more draft other :=
  ⟨h.closed, h.current, h.keys, fun key hkey => h.values key fun hmem => hkey (hmore hmem)⟩

/-- Twins have the same statements. -/
theorem statements (h : Twins names draft other) : other.statements = draft.statements := by
  rw [Draft.statements, Draft.statements, h.closed, h.current]

end Twins

/-- The names that stand in items set on creation. -/
def Draft.created (draft : Draft) : List String :=
  (draft.references .onCreateSet).map Prod.snd

/-- A step leaves the names that stand in items set on creation. -/
theorem created_subset {draft after : Draft} {step : Step} (h : draft.step step = .ok after) :
    draft.created ⊆ after.created := by
  obtain ⟨bindings, -, hbinds⟩ := step_binds h
  rw [Draft.created, Draft.created, hbinds.references, List.map_append]
  exact List.subset_append_left _ _

/-- What is set on creation is bound to a name that stands in an item set on creation. -/
theorem mem_created_of_onCreateSet {draft after : Draft} {target : String} {value : Value}
    (h : draft.step (.onCreateSet target value) = .ok after) :
    (draft.addParam ("set_" ++ target) value).1 ∈ after.created := by
  rw [Draft.step] at h
  obtain ⟨s, hcurrent, rfl⟩ := exists_of_modifyWith h
  simp [Draft.created, Draft.references, Draft.statements, Statement.references,
    SetItem.references]

/-- Steps that are equal once they are erased are equal, or set on creation alike. -/
theorem eq_or_onCreateSet_of_erase {step other : Step} (h : other.erase = step.erase) :
    other = step ∨ ∃ target value value', step = .onCreateSet target value ∧
      other = .onCreateSet target value' := by
  unfold Step.erase at h
  split at h
  · next target' value' =>
    split at h
    · next target value =>
      cases h
      exact .inr ⟨_, value, value', rfl, rfl⟩
    · next hstep => exact absurd h.symm (hstep _ _)
  · next hother =>
    split at h
    · exact absurd h (hother _ _)
    · exact .inl h

/-- Steps that differ in what they set on creation are taken alike. -/
theorem step_twins {draft other : Draft} (h : Twins draft.created draft other)
    {step step' : Step} (herase : step'.erase = step.erase) :
    SameOutcome (fun after after' => Twins after.created after after') (draft.step step)
      (other.step step') := by
  rcases eq_or_onCreateSet_of_erase herase with rfl | ⟨target, value, value', rfl, rfl⟩
  · exact (h.step step').imp fun after after' hafter htwins => htwins.mono (created_subset hafter)
  · have hset : SameOutcome (Twins ((draft.addParam ("set_" ++ target) value).1 :: draft.created))
        (draft.step (.onCreateSet target value)) (other.step (.onCreateSet target value')) := by
      rw [Draft.step, Draft.step]
      exact h.modifyWith _ value value' _
    -- The name that was bound stands among those set on creation from now on.
    refine hset.imp fun after after' hafter htwins => htwins.mono ?_
    exact List.cons_subset.mpr ⟨mem_created_of_onCreateSet hafter, created_subset hafter⟩

/-- Rows of steps that differ in what they set on creation fail with the same fault, or draft the
same statements and bind the same names, to values that differ at most under names that stand in
items set on creation. -/
theorem run_twins {draft other : Draft} (h : Twins draft.created draft other)
    {steps steps' : List Step} (herase : steps'.map Step.erase = steps.map Step.erase) :
    SameOutcome (fun after after' => Twins after.created after after') (draft.run steps)
      (other.run steps') := by
  induction steps generalizing draft other steps' with
  | nil =>
    obtain rfl : steps' = [] := List.map_eq_nil_iff.mp herase
    exact .ok h
  | cons step rest ih =>
    cases steps' with
    | nil => cases herase
    | cons step' rest' =>
      obtain ⟨hhead, hrest⟩ := List.cons_eq_cons.mp herase
      rw [Draft.run, Draft.run, List.foldlM_cons, List.foldlM_cons]
      exact (step_twins h hhead).bind fun mid mid' hmid => ih hmid hrest

end GraphMapper.Cypher
