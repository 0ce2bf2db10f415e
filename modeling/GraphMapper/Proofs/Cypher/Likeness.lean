import GraphMapper.Proofs.Cypher.Twins

/-!
# Steps that differ in their values

Two rows of steps that are alike step by step and differ in the values that they bind draft the same
statements and bind the same names, or fail with the same fault (`run_alike`). All that a draft asks
of a value is whether it is null, and that only of the properties of a node, so that any relation
between the values will do under which both are null or neither is.

How the values are related is left open: where they have to be equal, the steps are equal
(`eq_of_alike`).
-/

namespace GraphMapper

/-- Two bags have the same keys in the same order, and related values under each. -/
def EntriesAlike (related : Value → Value → Prop) (entries others : Bag) : Prop :=
  List.Forall₂ (fun entry other => other.1 = entry.1 ∧ related entry.2 other.2) entries others

section Entries

variable {related : Value → Value → Prop} {entries others : Bag}

/-- Bags stay alike that store related values under the same key. -/
theorem EntriesAlike.put (h : EntriesAlike related entries others) {key : String}
    {value value' : Value} (hvalue : related value value') :
    EntriesAlike related (KeyedList.put entries key value) (KeyedList.put others key value') := by
  induction h with
  | nil => exact .cons ⟨rfl, hvalue⟩ .nil
  | @cons entry other entries others hhead hrest ih =>
    obtain ⟨k, v⟩ := entry
    obtain ⟨k', v'⟩ := other
    obtain ⟨rfl, hv⟩ : k' = k ∧ related v v' := hhead
    rw [KeyedList.put, KeyedList.put]
    split
    · exact .cons ⟨rfl, hvalue⟩ hrest
    · split
      · exact .cons ⟨rfl, hvalue⟩ (.cons ⟨rfl, hv⟩ hrest)
      · exact .cons ⟨rfl, hv⟩ ih

/-- Bags that are made of entries that are alike, one by one, are alike. -/
theorem EntriesAlike.ofPairs {pairs pairs' : Bag} (h : EntriesAlike related pairs pairs') :
    EntriesAlike related (KeyedList.ofPairs pairs) (KeyedList.ofPairs pairs') := by
  have hfold : ∀ {entries others : Bag}, EntriesAlike related entries others →
      EntriesAlike related (pairs.foldl (fun bag pair => KeyedList.put bag pair.1 pair.2) entries)
        (pairs'.foldl (fun bag pair => KeyedList.put bag pair.1 pair.2) others) := by
    induction h with
    | nil => exact id
    | @cons pair pair' _ _ hhead _ ih =>
      intro entries others hentries
      rw [List.foldl_cons, List.foldl_cons, hhead.1]
      exact ih (hentries.put hhead.2)
  exact hfold .nil

/-- Bags that are alike in equal values are equal. -/
theorem eq_of_entriesAlike (h : EntriesAlike Eq entries others) : others = entries := by
  induction h with
  | nil => rfl
  | cons hhead _ ih => rw [ih, Prod.ext hhead.1 hhead.2.symm]

end Entries

namespace Cypher

/-- Two steps are the same but for the values that they bind, which are related. -/
inductive Step.Alike (related : Value → Value → Prop) : Step → Step → Prop
  | same (step : Step) : Alike related step step
  | start (verb : Verb) (var : String) (labels : List String) {properties others : Bag}
      (h : EntriesAlike related properties others) :
      Alike related (.start verb var labels properties) (.start verb var labels others)
  | set (target : String) {value other : Value} (h : related value other) :
      Alike related (.set target value) (.set target other)
  | onCreateSet (target : String) {value other : Value} (h : related value other) :
      Alike related (.onCreateSet target value) (.onCreateSet target other)
  | whereId (var : String) {identity other : Identity}
      (h : related (.int identity) (.int other)) :
      Alike related (.whereId var identity) (.whereId var other)

/-- Two rows of steps are alike step by step. -/
def StepsAlike (related : Value → Value → Prop) (steps others : List Step) : Prop :=
  List.Forall₂ (Step.Alike related) steps others

/-- Two drafts have the same statements and bind the same names. -/
def SameNames (draft other : Draft) : Prop :=
  ∃ names, Twins names draft other

variable {related : Value → Value → Prop} {draft other : Draft}

/-- Rows of steps are alike that are the same. -/
theorem StepsAlike.refl (steps : List Step) : StepsAlike related steps steps :=
  List.forall₂_same.mpr fun step _ => .same step

/-- Rows of steps one after the other are alike if each of them are. -/
theorem StepsAlike.append {steps others more more' : List Step}
    (h : StepsAlike related steps others) (hmore : StepsAlike related more more') :
    StepsAlike related (steps ++ more) (others ++ more') :=
  List.rel_append h hmore

/-- Properties that are alike are set by steps that are alike. -/
theorem stepsAlike_setProperties {properties others : Bag}
    (h : EntriesAlike related properties others) (var : String) :
    StepsAlike related (Step.setProperties var properties) (Step.setProperties var others) := by
  refine List.forall₂_map_left_iff.mpr (List.forall₂_map_right_iff.mpr (h.imp ?_))
  rintro entry other ⟨hkey, hvalue⟩
  rw [hkey]
  exact .set _ hvalue

/-- Properties that are alike are set on creation by steps that are alike. -/
theorem stepsAlike_createProperties {properties others : Bag}
    (h : EntriesAlike related properties others) (var : String) :
    StepsAlike related (Step.createProperties var properties)
      (Step.createProperties var others) := by
  refine List.forall₂_map_left_iff.mpr (List.forall₂_map_right_iff.mpr (h.imp ?_))
  rintro entry other ⟨hkey, hvalue⟩
  rw [hkey]
  exact .onCreateSet _ hvalue

/-- Rows of steps that are alike in equal values are equal. -/
theorem eq_of_alike {steps others : List Step} (h : StepsAlike Eq steps others) :
    others = steps := by
  induction h with
  | nil => rfl
  | cons hhead _ ih =>
    rw [ih]
    cases hhead with
    | same => rfl
    | start verb var labels hproperties => rw [eq_of_entriesAlike hproperties]
    | set target hvalue => rw [hvalue]
    | onCreateSet target hvalue => rw [hvalue]
    | whereId var hidentity => rw [Value.int.inj hidentity]

/-- Twins that bind properties that are alike get the same pairs and stay twins. -/
theorem Twins.exists_addProperties
    (hnull : ∀ value value', related value value' → value.isNull = value'.isNull)
    {names : List String} (h : Twins names draft other) (var : String) {properties others : Bag}
    (halike : EntriesAlike related properties others) :
    (other.addProperties var others).1 = (draft.addProperties var properties).1 ∧
      SameNames (draft.addProperties var properties).2 (other.addProperties var others).2 := by
  induction halike generalizing draft other names with
  | nil => exact ⟨rfl, names, h⟩
  | @cons entry entry' rest rest' hhead _ ih =>
    obtain ⟨key, value⟩ := entry
    obtain ⟨key', value'⟩ := entry'
    obtain ⟨rfl, hvalue⟩ : key' = key ∧ related value value' := hhead
    simp only [Draft.addProperties, hnull value value' hvalue]
    cases value'.isNull with
    | true => exact ih h
    | false =>
      have hname := h.addParam_fst (var ++ "_" ++ key') value value'
      obtain ⟨hpairs, hsame⟩ := ih (h.addParam (var ++ "_" ++ key') value value')
      rw [if_neg (by simp), if_neg (by simp)]
      exact ⟨congrArg₂ List.cons (congrArg (PropertyPair.mk key') hname) hpairs, hsame⟩

/-- Steps that are alike are taken alike. -/
theorem step_alike (hnull : ∀ value value', related value value' → value.isNull = value'.isNull)
    (h : SameNames draft other) {step step' : Step} (halike : step.Alike related step') :
    SameOutcome SameNames (draft.step step) (other.step step') := by
  obtain ⟨names, htwins⟩ := h
  cases halike with
  | same => exact (htwins.step step).imp fun _ _ _ hafter => ⟨names, hafter⟩
  | start verb var labels hproperties =>
    obtain ⟨hpairs, more, hmore⟩ := htwins.exists_addProperties hnull var hproperties
    simp only [Draft.step, Draft.nodePattern, hpairs]
    exact .ok ⟨more, hmore.openStatement _⟩
  | set target _ =>
    rw [Draft.step, Draft.step]
    exact (htwins.modifyWith _ _ _ _).imp fun _ _ _ hafter => ⟨_, hafter⟩
  | onCreateSet target _ =>
    rw [Draft.step, Draft.step]
    exact (htwins.modifyWith _ _ _ _).imp fun _ _ _ hafter => ⟨_, hafter⟩
  | whereId var _ =>
    rw [Draft.step, Draft.step]
    exact (htwins.modifyWith _ _ _ _).imp fun _ _ _ hafter => ⟨_, hafter⟩

/-- Rows of steps that are alike draft the same statements and bind the same names, or fail with the
same fault. -/
theorem run_alike (hnull : ∀ value value', related value value' → value.isNull = value'.isNull)
    (h : SameNames draft other) {steps steps' : List Step}
    (halike : StepsAlike related steps steps') :
    SameOutcome SameNames (draft.run steps) (other.run steps') := by
  induction halike generalizing draft other with
  | nil => exact .ok h
  | cons hhead _ ih =>
    rw [Draft.run, Draft.run, List.foldlM_cons, List.foldlM_cons]
    exact (step_alike hnull h hhead).bind fun mid mid' hmid => ih hmid

/-- Drafts with the same statements that bind the same names give queries with the same text and the
same names of parameters. -/
theorem SameNames.query (h : SameNames draft other) : other.query.text = draft.query.text ∧
    KeyedList.keys other.query.params = KeyedList.keys draft.query.params := by
  obtain ⟨names, htwins⟩ := h
  exact ⟨by rw [Draft.query, Draft.query, htwins.statements], htwins.keys⟩

end Cypher

end GraphMapper
