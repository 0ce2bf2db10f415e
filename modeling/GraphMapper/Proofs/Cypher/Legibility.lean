import GraphMapper.Proofs.Cypher.Bindings
import GraphMapper.Proofs.Cypher.Reading

/-!
# Drafts that are read as they are meant

A draft is legible if its statements are, and then its query is read as their lexemes, line by line
(`Draft.Legible.reads`). A step writes names, which are quoted, values, which are bound to
parameters with plain names, and what it is given to be written as it is (`Step.bare`). So a step
that is given nothing but texts that stand for themselves leaves a legible draft legible
(`Draft.Legible.step`), and the query of steps that are given no others is read as the lexemes of
its draft (`lexemesOf_query`).
-/

namespace GraphMapper.Cypher

/-- The lexemes of the query of a draft. -/
def Draft.lexemes (draft : Draft) : List Lexeme :=
  (lexemesOf "\n").intercalate (draft.statements.map Statement.lexemes)

/-- Every statement of a draft is legible. -/
def Draft.Legible (draft : Draft) : Prop :=
  ∀ s ∈ draft.statements, s.Legible

/-- What a step writes as it is given. -/
def Step.bare : Step → List String
  | .start _ var _ _ | .andNode var _ | .to var _ _ => [var]
  | .carry vars => vars
  | .relationship var _ _ _ => var.toList
  | .whereCompare expression _ _ _ | .whereBetween expression _ _ => [expression]
  | .whereId var _ => [var]
  | .whereRaw text | .setRaw text => [text]
  | .set target _ | .onCreateSet target _ | .onMatchSet target _ => [target]
  | .setMerge var _ | .delete var | .detachDelete var => [var]
  | .remove expression | .orderBy expression _ => [expression]
  | .returning expressions | .returnDistinct expressions => expressions
  | .param _ _ | .openGroup _ _ | .skip _ | .limit _ => []

/-- All that steps are given to be written as it is stands for itself. -/
def LegibleSteps (steps : List Step) : Prop :=
  ∀ step ∈ steps, ∀ text ∈ step.bare, Standalone text

/-- The query of a legible draft is read as the lexemes of the draft. -/
theorem Draft.Legible.reads {draft : Draft} (h : draft.Legible) :
    Reads draft.query.text draft.lexemes :=
  reads_joined "\n" (by decide) (reads_map draft.statements fun s hs => (h s hs).reads)

/-! ## Statements and their parts -/

/-- Nothing is written in a draft without statements. -/
theorem legible_empty : Draft.Legible {} := fun _ hs => absurd hs List.not_mem_nil

/-- A statement that is opened has nothing but its head and its paths. -/
theorem legible_opened {head : Head} {paths : List Path} (hhead : ∀ var ∈ head.bare, Standalone var)
    (hpaths : ∀ path ∈ paths, ∀ text ∈ path.bare, Standalone text) :
    Statement.Legible { head, paths } :=
  ⟨hhead, hpaths, nofun, nofun, nofun, nofun, nofun, nofun, nofun, nofun, nofun⟩

/-- A path of one node is written as the node is. -/
theorem legible_nodePath {node : NodePattern}
    (h : ∀ text ∈ (PathElement.node node).bare, Standalone text) :
    ∀ path ∈ [(⟨[.node node]⟩ : Path)], ∀ text ∈ path.bare, Standalone text := by
  simpa [Path.bare] using h

/-- A filter with one more predicate is written as both are. -/
theorem mem_bare_add {filter : Filter} {p : Predicate} {text : String}
    (h : text ∈ (filter.add p).bare) : text ∈ filter.bare ∨ text ∈ p.condition.bare := by
  unfold Filter.add at h
  split at h
  · simp only [Filter.bare, List.flatMap_cons, List.flatMap_nil, List.append_nil] at h
    exact .inr h
  · next group hgroup =>
    have hgroups : filter.groups = filter.groups.dropLast ++ [group] :=
      (List.dropLast_append_getLast? group hgroup).symm
    rw [Filter.bare, hgroups]
    simpa [Filter.bare, or_assoc] using h

/-- A statement stays legible with one more condition. -/
theorem legible_addPredicate {s : Statement} (h : s.Legible) {condition : Condition}
    (negated : Bool) (hcondition : ∀ text ∈ condition.bare, Standalone text) :
    (Draft.addPredicate condition negated s).Legible :=
  { h with filter := fun text htext => (mem_bare_add htext).elim (h.filter text) (hcondition text) }

/-- What holds of all items and of one more holds of all with that one. -/
theorem forall_mem_snoc {α : Type} {p : α → Prop} {items : List α} {item : α}
    (h : ∀ i ∈ items, p i) (hitem : p item) : ∀ i ∈ items ++ [item], p i :=
  List.forall_mem_append.mpr ⟨h, List.forall_mem_singleton.mpr hitem⟩

section

variable {draft after : Draft}

/-- The parameters of properties have plain names. -/
theorem standalone_params (draft : Draft) (var : String) (properties : Bag) :
    ∀ pair ∈ (draft.addProperties var properties).1, Standalone pair.param := by
  induction properties generalizing draft with
  | nil => nofun
  | cons entry rest ih =>
    obtain ⟨key, value⟩ := entry
    simp only [Draft.addProperties]
    split
    · exact ih draft
    · intro pair hpair
      rcases List.mem_cons.mp hpair with rfl | hpair
      · exact standalone_of_isIdentifier (draft.isIdentifier_addParam _ value)
      · exact ih _ pair hpair

/-- A node pattern is written as its variable is, whatever its labels and properties are. -/
theorem standalone_nodePattern (draft : Draft) {var : String} (hvar : Standalone var)
    (labels : List String) (properties : Bag) :
    ∀ text ∈ (PathElement.node (draft.nodePattern var labels properties).1).bare,
      Standalone text := by
  intro text htext
  rcases List.mem_append.mp htext with htext | htext
  · simp only [Draft.nodePattern] at htext
    split at htext
    · cases htext
    · obtain rfl := List.mem_singleton.mp htext
      exact hvar
  · obtain ⟨pair, hpair, rfl⟩ := List.mem_map.mp htext
    exact standalone_params draft var properties pair hpair

/-! ## What a step leaves legible -/

/-- A draft stays legible when the properties of a node are bound. -/
theorem Draft.Legible.nodePattern (h : draft.Legible) (var : String) (labels : List String)
    (properties : Bag) : (draft.nodePattern var labels properties).2.Legible := by
  obtain ⟨hclosed, hcurrent⟩ := addProperties_keeps draft var properties
  intro s hs
  refine h s ?_
  rwa [Draft.statements, Draft.nodePattern, hclosed, hcurrent] at hs

/-- A draft stays legible when a legible statement is opened. -/
theorem Draft.Legible.openStatement (h : draft.Legible) {s : Statement} (hs : s.Legible) :
    (draft.openStatement s).Legible := by
  intro other hother
  simp only [Draft.statements, Draft.openStatement, Option.toList_some, List.mem_append,
    List.mem_singleton] at hother
  rcases hother with hother | rfl
  · exact h other (List.mem_append.mpr hother)
  · exact hs

/-- A draft stays legible when its open statement does. -/
theorem Draft.Legible.of_current {s changed : Statement} (h : draft.Legible)
    (hclosed : after.closed = draft.closed) (hcurrent : draft.current = some s)
    (hchanged : after.current = some changed) (hlegible : s.Legible → changed.Legible) :
    after.Legible := by
  intro other hother
  simp only [Draft.statements, hclosed, hchanged, Option.toList_some, List.mem_append,
    List.mem_singleton] at hother
  rcases hother with hother | rfl
  · exact h other (List.mem_append_left _ hother)
  · exact hlegible (h s (by simp [Draft.statements, hcurrent]))

/-- A change that keeps statements legible keeps the draft so. -/
theorem Draft.Legible.modify (h : draft.Legible) {change : Statement → Statement}
    (hafter : draft.modify change = .ok after)
    (hchange : ∀ s : Statement, s.Legible → (change s).Legible) : after.Legible := by
  unfold Draft.modify at hafter
  split at hafter
  · next s hcurrent =>
    cases hafter
    exact h.of_current rfl hcurrent rfl (hchange s)
  · cases hafter

/-- A change by a value keeps the draft legible if it does so with any plain name of a parameter. -/
theorem Draft.Legible.modifyWith (h : draft.Legible) {base : String} {value : Value}
    {change : String → Statement → Statement}
    (hafter : draft.modifyWith base value change = .ok after)
    (hchange : ∀ name (s : Statement), Standalone name → s.Legible → (change name s).Legible) :
    after.Legible := by
  obtain ⟨s, hcurrent, rfl⟩ := exists_of_modifyWith hafter
  have hname := standalone_of_isIdentifier (draft.isIdentifier_addParam base value)
  exact h.of_current rfl hcurrent rfl (hchange _ s hname)

/-- A draft stays legible when its last path is extended. -/
theorem Draft.Legible.extendPath (h : draft.Legible) {element : PathElement}
    (hafter : draft.extendPath element = .ok after)
    (helement : ∀ text ∈ element.bare, Standalone text) : after.Legible := by
  unfold Draft.extendPath at hafter
  split at hafter
  · cases hafter
  · next s hcurrent =>
    split at hafter
    · cases hafter
    · next path hpath =>
      cases hafter
      -- Only the last path changes, which goes on with the element.
      refine h.of_current rfl hcurrent rfl fun hs => { hs with paths := forall_mem_snoc ?_ ?_ }
      · exact fun other hother => hs.paths other ((List.dropLast_sublist _).subset hother)
      · have hlast := hs.paths path (List.mem_of_getLast? hpath)
        rw [Path.bare] at hlast ⊢
        rw [List.flatMap_append]
        exact List.forall_mem_append.mpr ⟨hlast, by simpa using helement⟩

/-- A step that is given nothing but texts that stand for themselves keeps a draft legible. -/
theorem Draft.Legible.step (h : draft.Legible) {step : Step}
    (hstep : ∀ text ∈ step.bare, Standalone text) (hafter : draft.step step = .ok after) :
    after.Legible := by
  cases step with
  | param base value =>
    cases hafter
    exact h
  | start verb var labels properties =>
    cases hafter
    have hnode := standalone_nodePattern draft (hstep var (by simp [Step.bare])) labels properties
    exact (h.nodePattern var labels properties).openStatement
      (legible_opened nofun (legible_nodePath hnode))
  | andNode var labels =>
    have hnode := standalone_nodePattern draft (hstep var (by simp [Step.bare])) labels []
    exact (h.nodePattern var labels []).modify hafter fun s hs =>
      { hs with paths := List.forall_mem_append.mpr ⟨hs.paths, legible_nodePath hnode⟩ }
  | carry vars =>
    cases hafter
    exact h.openStatement (legible_opened hstep nofun)
  | relationship var types direction hops => exact h.extendPath hafter hstep
  | «to» var labels properties =>
    exact (h.nodePattern var labels properties).extendPath hafter
      (standalone_nodePattern draft (hstep var (by simp [Step.bare])) labels properties)
  | whereCompare left comparison value negated =>
    rw [Draft.step] at hafter
    refine h.modifyWith hafter fun name s hname hs => legible_addPredicate hs negated ?_
    simpa [Condition.bare] using ⟨hstep left (by simp [Step.bare]), hname⟩
  | whereBetween expression floor ceiling =>
    simp only [Draft.step] at hafter
    split at hafter
    · cases hafter
    · -- Two values are bound before the one predicate that has the names of both.
      have hfloor := draft.isIdentifier_addParam ("where_" ++ expression ++ "_floor") floor
      have hbound : (draft.addParam ("where_" ++ expression ++ "_floor") floor).2.Legible := h
      refine hbound.modifyWith hafter fun name s hname hs => legible_addPredicate hs false ?_
      have hexpression := hstep expression (by simp [Step.bare])
      simpa [Condition.bare] using ⟨hexpression, standalone_of_isIdentifier hfloor, hname⟩
  | whereId var identity =>
    rw [Draft.step] at hafter
    refine h.modifyWith hafter fun name s hname hs => legible_addPredicate hs false ?_
    simpa [Condition.bare] using ⟨hstep var (by simp [Step.bare]), hname⟩
  | whereRaw text =>
    exact h.modify hafter fun s hs => legible_addPredicate hs false hstep
  | openGroup join connector =>
    refine h.modify hafter fun s hs => { hs with filter := ?_ }
    simpa [Filter.openGroup, Filter.bare] using hs.filter
  | set target value =>
    rw [Draft.step] at hafter
    refine h.modifyWith hafter fun name s hname hs => { hs with set := forall_mem_snoc hs.set ?_ }
    simpa [SetItem.bare] using ⟨hstep target (by simp [Step.bare]), hname⟩
  | setMerge var properties =>
    rw [Draft.step] at hafter
    refine h.modifyWith hafter fun name s hname hs => { hs with set := forall_mem_snoc hs.set ?_ }
    simpa [SetItem.bare] using ⟨hstep var (by simp [Step.bare]), hname⟩
  | setRaw text =>
    exact h.modify hafter fun s hs => { hs with set := forall_mem_snoc hs.set hstep }
  | onCreateSet target value =>
    rw [Draft.step] at hafter
    refine h.modifyWith hafter fun name s hname hs =>
      { hs with onCreateSet := forall_mem_snoc hs.onCreateSet ?_ }
    simpa [SetItem.bare] using ⟨hstep target (by simp [Step.bare]), hname⟩
  | onMatchSet target value =>
    rw [Draft.step] at hafter
    refine h.modifyWith hafter fun name s hname hs =>
      { hs with onMatchSet := forall_mem_snoc hs.onMatchSet ?_ }
    simpa [SetItem.bare] using ⟨hstep target (by simp [Step.bare]), hname⟩
  | remove expression =>
    exact h.modify hafter fun s hs =>
      { hs with remove := forall_mem_snoc hs.remove (hstep expression (by simp [Step.bare])) }
  | delete var =>
    exact h.modify hafter fun s hs =>
      { hs with delete := forall_mem_snoc hs.delete (hstep var (by simp [Step.bare])) }
  | detachDelete var =>
    exact h.modify hafter fun s hs =>
      { hs with detachDelete := forall_mem_snoc hs.detachDelete (hstep var (by simp [Step.bare])) }
  | returning expressions | returnDistinct expressions =>
    exact h.modify hafter fun s hs =>
      { hs with returns := List.forall_mem_append.mpr ⟨hs.returns, hstep⟩ }
  | orderBy expression order =>
    exact h.modify hafter fun s hs =>
      { hs with orderBy := forall_mem_snoc hs.orderBy (hstep expression (by simp [Step.bare])) }
  | skip | limit => exact h.modify hafter fun s hs => { hs with }

/-- Steps that are given nothing but texts that stand for themselves keep a draft legible. -/
theorem Draft.Legible.run {steps : List Step} (h : draft.Legible) (hsteps : LegibleSteps steps)
    (hafter : draft.run steps = .ok after) : after.Legible :=
  holds_of_foldlM Draft.Legible
    (fun step hstep _ _ hlegible hnext => hlegible.step (hsteps step hstep) hnext) hafter h

/-- The query of steps that are given nothing but texts that stand for themselves is read as the
lexemes of its draft. -/
theorem lexemesOf_query {steps : List Step} (hsteps : LegibleSteps steps)
    (hdraft : Draft.run {} steps = .ok draft) : lexemesOf draft.query.text = draft.lexemes :=
  (legible_empty.run hsteps hdraft).reads.lexemesOf_eq

end

end GraphMapper.Cypher
