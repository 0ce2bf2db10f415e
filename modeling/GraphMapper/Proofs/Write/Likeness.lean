import GraphMapper.Proofs.Cypher.Likeness
import GraphMapper.Proofs.Write.Conservation
import GraphMapper.Proofs.Write.Erasure
import GraphMapper.Proofs.Write.Scope

/-!
# Payloads of the same shape

Two payloads have the same shape (`BagsAlike`) if they hold something under the same declared keys
and, under each relationship, items of the same kinds: nodes for nodes, scalars for scalars, bags of
the same shape for bags. Of the values all that counts is how they are related, which is left open.

Payloads of the same shape are planned alike (`planNode_alike`): the plans have the same variables,
labels and links, and their steps differ in the values alone. If the values need only be null or not
null together, the queries still have the same text and the same names of parameters
(`text_independent_of_values`), so that no value reaches the text.
-/

namespace GraphMapper

open Cypher

/-- An error without the kind of the value that was rejected. -/
def CompileError.untyped : CompileError → CompileError
  | .invalidReference relationship model _ => .invalidReference relationship model ""
  | error => error

/-- Whether a value cannot stand for a node: it is no node, no bag and no scalar. -/
def Value.isRefused : Value → Bool
  | .node _ _ _ | .map _ => false
  | value => !value.isScalar

section Definitions

variable (related : Value → Value → Prop)

/-- Two far sides are of the same kind. -/
inductive FarAlike (alike : Bag → Bag → Prop) : Value → Value → Prop
  | node {identity other : Identity} {labels labels' : List String} {properties properties' : Bag}
      (h : related (.int identity) (.int other)) :
      FarAlike alike (.node identity labels properties) (.node other labels' properties')
  | bag {bag other : Bag} (h : alike bag other) : FarAlike alike (.map bag) (.map other)
  | scalar {value other : Value} (hvalue : value.isScalar) (hother : other.isScalar)
      (h : related value other) : FarAlike alike value other
  | refused {value other : Value} (hvalue : value.isRefused) (hother : other.isRefused) :
      FarAlike alike value other

/-- Two items of a relationship are alike: their far sides are and, where the relationship itself is
held, so are its declared properties that are not null. -/
inductive ItemAlike (far : Value → Value → Prop) (rel : Relationship) : Value → Value → Prop
  | node {value other : Value} (hshape : rel.shape.isRelationship = false) (h : far value other) :
      ItemAlike far rel value other
  | held {entries others : Bag} (hshape : rel.shape.isRelationship)
      (hproperties : EntriesAlike related (linkProperties rel entries) (linkProperties rel others))
      (hfar : Option.Rel far (KeyedList.get? entries rel.nodeKey)
        (KeyedList.get? others rel.nodeKey)) :
      ItemAlike far rel (.map entries) (.map others)
  | refused {value other : Value} (hshape : rel.shape.isRelationship)
      (hvalue : value.entries? = none) (hother : other.entries? = none) :
      ItemAlike far rel value other

/-- Two bags hold items that are alike under a relationship, one by one; where the target of the
relationship is not registered, something in both or in neither. -/
def RelatedAlike (registry : Registry) (alike : EntityType → Bag → Bag → Prop) (bag other : Bag)
    (rel : Relationship) : Prop :=
  match registry.target? rel with
  | none => (other.present? rel.name).isSome = (bag.present? rel.name).isSome
  | some target =>
    Option.Rel (fun value value' =>
        List.Forall₂ (ItemAlike related (FarAlike related (alike target)) rel)
          (relatedItems rel.shape value) (relatedItems rel.shape value'))
      (bag.present? rel.name) (other.present? rel.name)

/-- Two bags note the same, and have the same declared properties, with related values. -/
structure PropertiesAlike (model : EntityType) (bag other : Bag) : Prop where
  noted : defaultedNames other = defaultedNames bag
  declared : ∀ p ∈ model.properties,
    Option.Rel related (bag.present? p.name) (other.present? p.name)

/-- Two bags for a type are alike for so many levels. Below the last one it only counts whether
there is anything. -/
def BagsAlike (registry : Registry) : Nat → EntityType → Bag → Bag → Prop
  | 0, model, bag, other => PropertiesAlike related model bag other ∧
      ∀ rel ∈ model.relationships,
        (other.present? rel.name).isSome = (bag.present? rel.name).isSome
  | levels + 1, model, bag, other => PropertiesAlike related model bag other ∧
      ∀ rel ∈ model.relationships,
        RelatedAlike related registry (BagsAlike registry levels) bag other rel

/-- Two far nodes are obtained under the same variable, by steps that are alike. -/
structure TargetAlike (target other : WriteTarget) : Prop where
  var : other.var = target.var
  steps : ∀ scope, StepsAlike related (target.steps scope) (other.steps scope)

/-- Two plans have the same variable and steps that are alike. -/
structure PlanAlike (plan other : WritePlan) : Prop where
  var : other.var = plan.var
  steps : ∀ scope, StepsAlike related (plan.stepsIn scope) (other.stepsIn scope)

/-- Two links are written by steps that are alike. -/
def LinkAlike (link other : WriteLink) : Prop :=
  ∀ verb var scope, StepsAlike related (link.stepsIn verb var scope)
    (other.stepsIn verb var scope)

end Definitions

section

variable {related : Value → Value → Prop} {registry : Registry} {limit : WriteLimit} {levels : Nat}
  {mode : WriteMode} {var : String} {model target : EntityType} {rel : Relationship}
  {bag other : Bag}

/-! ## The properties of an entity -/

/-- A value is there in both bags or in neither. -/
theorem isSome_eq_of_rel {α β : Type} {r : α → β → Prop} {a : Option α} {b : Option β}
    (h : Option.Rel r a b) : b.isSome = a.isSome := by
  cases h <;> rfl

/-- The parts of two bags with related properties are alike. -/
theorem PropertiesAlike.part (h : PropertiesAlike related model bag other) (mode : WriteMode)
    (part : Part) :
    EntriesAlike related ((splitProperties mode model bag).part part)
      ((splitProperties mode model other).part part) := by
  have hkeyed : isKeyed model other = isKeyed model bag :=
    isKeyed_congr (mem_defaultedNames_congr h.noted) fun p hp =>
      isSome_eq_of_rel (h.declared p hp)
  have hpart : ∀ p, partOf mode model other p = partOf mode model bag p := by
    intro p
    cases mode with
    | create => rfl
    | merge => simp only [partOf, mergePart, h.noted, hkeyed]
  have hentry : ∀ p ∈ model.properties,
      Option.Rel (fun entry entry' : String × Value => entry'.1 = entry.1 ∧
        related entry.2 entry'.2) (entryIn mode model bag part p)
        (entryIn mode model other part p) := by
    intro p hp
    rw [entryIn, entryIn, hpart]
    split
    · have hvalue := h.declared p hp
      generalize bag.present? p.name = value, other.present? p.name = value' at hvalue
      cases hvalue with
      | some hvalue => exact .some ⟨rfl, hvalue⟩
      | none => exact .none
    · exact .none
  rw [part_splitProperties, part_splitProperties]
  refine EntriesAlike.ofPairs ?_
  have hsame : List.Forall₂ (fun p q : Property => q = p ∧ p ∈ model.properties)
      model.properties model.properties := List.forall₂_same.mpr fun p hp => ⟨rfl, hp⟩
  refine List.rel_filterMap (P := fun entry entry' : String × Value => entry'.1 = entry.1 ∧
    related entry.2 entry'.2) ?_ hsame
  rintro p q ⟨rfl, hp⟩
  exact hentry q hp

/-- An entity with related properties and links that are alike is written by steps that are
alike. -/
theorem planAlike_mk (h : PropertiesAlike related model bag other) {links links' : List WriteLink}
    (hlinks : List.Forall₂ (LinkAlike related) links links') :
    PlanAlike related (.mk mode var model.labels (splitProperties mode model bag) links)
      (.mk mode var model.labels (splitProperties mode model other) links') := by
  refine ⟨rfl, fun scope => ?_⟩
  have hinline := h.part mode .inline
  have hcreate := h.part mode .onCreate
  have hset := h.part mode .set
  have hrest : StepsAlike related (linkSteps mode.verb var (scope ++ [var]) links)
      (linkSteps mode.verb var (scope ++ [var]) links') := by
    rw [linkSteps_eq, linkSteps_eq]
    exact List.rel_flatMap hlinks fun link link' hlink => hlink mode.verb var (scope ++ [var])
  rw [WritePlan.stepsIn, WritePlan.stepsIn]
  exact StepsAlike.append (StepsAlike.append
    (.cons (.start mode.verb var model.labels hinline) (stepsAlike_createProperties hcreate var))
    (stepsAlike_setProperties hset var)) hrest

/-! ## What is related to an entity -/

/-- A link to far nodes that are obtained alike, with related properties, is written alike. -/
theorem linkAlike_mk {far far' : WriteTarget} (hfar : TargetAlike related far far')
    {properties properties' : Bag} (hproperties : EntriesAlike related properties properties')
    (name type : String) (direction : Direction) (relVar : String) :
    LinkAlike related (.mk name type direction relVar properties far)
      (.mk name type direction relVar properties' far') := by
  intro verb var scope
  rw [WriteLink.stepsIn, WriteLink.stepsIn, hfar.var]
  exact StepsAlike.append (.cons (.same _) (hfar.steps scope))
    (StepsAlike.append (.refl _) (stepsAlike_setProperties hproperties relVar))

/-- Far sides of the same kind are planned alike, if bags are. -/
theorem planFar_alike {planBag : String → EntityType → Bag → Except CompileError WritePlan}
    {alike : Bag → Bag → Prop}
    (hbags : ∀ var bag other, alike bag other → SameOutcome (PlanAlike related)
      ((planBag var target bag).mapError CompileError.untyped)
      ((planBag var target other).mapError CompileError.untyped))
    (model : EntityType) (rel : Relationship) (var : String) {value value' : Value}
    (h : FarAlike related alike value value') :
    SameOutcome (TargetAlike related)
      ((planFar planBag model rel target var value).mapError CompileError.untyped)
      ((planFar planBag model rel target var value').mapError CompileError.untyped) := by
  cases h with
  | node hidentity =>
    exact .ok ⟨rfl, fun scope => .cons (.same _) (.cons (.whereId var hidentity) .nil)⟩
  | @bag entries others halike =>
    rw [planFar, planFar, mapError_map, mapError_map]
    exact (hbags var entries others halike).map fun plan plan' hplan => ⟨hplan.var, hplan.steps⟩
  | scalar hvalue hother hrelated =>
    have hplan : ∀ {scalar : Value}, scalar.isScalar → planFar planBag model rel target var scalar
        = scalarTarget model rel target var scalar := by
      intro scalar hscalar
      cases scalar <;> simp_all [planFar, Value.isScalar]
    rw [hplan hvalue, hplan hother, scalarTarget, scalarTarget]
    split
    · next key _ =>
      refine .ok ⟨rfl, fun scope => .cons ?_ .nil⟩
      exact .start .merge var target.labels (.cons ⟨rfl, hrelated⟩ .nil)
    · exact .error _
  | refused hvalue hother =>
    have hplan : ∀ {refused : Value}, refused.isRefused →
        (planFar planBag model rel target var refused).mapError CompileError.untyped
          = .error (.invalidReference rel.name model.name "") := by
      intro refused hrefused
      cases refused <;> simp_all [planFar, Value.isRefused, Value.isScalar, Except.mapError,
        CompileError.untyped]
    rw [hplan hvalue, hplan hother]
    exact .error _

/-- Items that are alike come apart alike. -/
theorem splitItem_alike {far : Value → Value → Prop} (model : EntityType) {item item' : Value}
    (h : ItemAlike related far rel item item') :
    SameOutcome (fun side side' : Value × Bag =>
        far side.1 side'.1 ∧ EntriesAlike related side.2 side'.2)
      ((splitItem model rel item).mapError CompileError.untyped)
      ((splitItem model rel item').mapError CompileError.untyped) := by
  cases h with
  | node hshape h =>
    simp only [splitItem, hshape]
    exact .ok ⟨h, .nil⟩
  | held hshape hproperties hfar =>
    rename_i entries others
    simp only [splitItem, hshape, if_true]
    generalize KeyedList.get? entries rel.nodeKey = node,
      KeyedList.get? others rel.nodeKey = node' at hfar
    cases hfar with
    | some hfar => exact .ok ⟨hfar, hproperties⟩
    | none => exact .error _
  | refused hshape hvalue hother =>
    have hsplit : ∀ {value : Value}, value.entries? = none →
        (splitItem model rel value).mapError CompileError.untyped
          = .error (.invalidReference rel.name model.name "") := by
      intro value hvalue
      cases value <;> simp_all [splitItem, Value.entries?, Except.mapError, CompileError.untyped]
    rw [hsplit hvalue, hsplit hother]
    exact .error _

/-- Bags for any type that are alike are planned alike. -/
def PlannedAlike (related : Value → Value → Prop)
    (planBag : String → EntityType → Bag → Except CompileError WritePlan)
    (alike : EntityType → Bag → Bag → Prop) : Prop :=
  ∀ var target bag other, alike target bag other → SameOutcome (PlanAlike related)
    ((planBag var target bag).mapError CompileError.untyped)
    ((planBag var target other).mapError CompileError.untyped)

/-- What bags hold alike under a relationship is planned alike, if far bags are. -/
theorem planRelated_alike (var : String) (model : EntityType)
    {planBag : String → EntityType → Bag → Except CompileError WritePlan}
    {alike : EntityType → Bag → Bag → Prop} (hbags : PlannedAlike related planBag alike)
    (h : RelatedAlike related registry alike bag other rel) :
    SameOutcome (List.Forall₂ (LinkAlike related))
      ((planRelated registry planBag var model bag rel).mapError CompileError.untyped)
      ((planRelated registry planBag var model other rel).mapError CompileError.untyped) := by
  unfold RelatedAlike at h
  unfold planRelated
  generalize bag.present? rel.name = value, other.present? rel.name = value' at h
  cases htarget : registry.target? rel with
  | none =>
    rw [htarget] at h
    cases value <;> cases value' <;> simp at h
    · exact .ok .nil
    · exact .error _
  | some target =>
    rw [htarget] at h
    cases h with
    | none => exact .ok .nil
    | @some value value' hitems =>
      simp only [mapError_mapM]
      refine SameOutcome.mapM ((zipIdx_of_forall₂ hitems 0).imp ?_)
      rintro ⟨item, index⟩ ⟨item', index'⟩ ⟨rfl, hitem⟩
      simp only [planItem, mapError_bind]
      refine (splitItem_alike model hitem).bind ?_
      rintro ⟨node, properties⟩ ⟨node', properties'⟩ ⟨hnode, hproperties⟩
      refine (planFar_alike (hbags · target · ·) model rel (farVar var rel index) hnode).bind ?_
      exact fun far far' hfar => .ok (linkAlike_mk hfar hproperties _ _ _ _)

/-- The first relationship with a value is the same where the same relationships have one. -/
theorem find?_present_congr (h : ∀ rel ∈ model.relationships,
      (other.present? rel.name).isSome = (bag.present? rel.name).isSome) :
    (model.relationships.find? fun rel => (other.present? rel.name).isSome) =
      model.relationships.find? fun rel => (bag.present? rel.name).isSome := by
  rw [← List.head?_filter, ← List.head?_filter, List.filter_congr h]

/-- Bags of the same shape are planned alike, for as many levels as there are. -/
theorem planNode_alike : ∀ {mode : WriteMode}, PlannedAlike related
    (planNode registry limit levels mode) (BagsAlike related registry levels) := by
  induction levels with
  | zero =>
    rintro mode var model bag other ⟨hproperties, hthere⟩
    rw [planNode, planNode, find?_present_congr hthere]
    split
    · exact .error _
    · exact .ok (planAlike_mk hproperties .nil)
  | succ levels ih =>
    rintro mode var model bag other ⟨hproperties, hrelated⟩
    simp only [planNode, mapError_bind, mapError_mapM]
    have hlinks := SameOutcome.mapM (List.forall₂_same.mpr fun rel hrel =>
      planRelated_alike var model (@ih .merge) (hrelated rel hrel))
    exact hlinks.bind fun links links' halike =>
      .ok (planAlike_mk hproperties (List.rel_flatten halike))

/-! ## The queries of two payloads -/

end

/-- Steps that can be taken from any draft. -/
def Takable (steps : List Step) : Prop :=
  ∀ draft : Draft, ∃ after, draft.run steps = .ok after

/-- Steps one after the other can be taken if each can. -/
theorem Takable.append {steps more : List Step} (h : Takable steps) (hmore : Takable more) :
    Takable (steps ++ more) := by
  intro draft
  obtain ⟨mid, hmid⟩ := h draft
  obtain ⟨after, hafter⟩ := hmore mid
  exact ⟨after, run_append_eq_ok hmid hafter⟩

/-- Steps that conserve anything can be taken. -/
theorem Cypher.Conserves.takable {steps : List Step} {values : List Value} {nodes : List String}
    {joins : List Path} (h : Conserves steps values nodes joins) : Takable steps := by
  intro draft
  obtain ⟨after, hrun, -⟩ := h.writes draft
  exact ⟨after, hrun⟩

mutual

/-- The steps of a plan can be taken. -/
theorem WritePlan.takable_stepsIn (scope : List String) : (plan : WritePlan) →
    Takable (plan.stepsIn scope)
  | .mk mode var labels _ links =>
    (conserves_entity mode.verb var labels _ _ _).takable.append
      (takable_linkSteps mode.verb var (scope ++ [var]) links)

/-- The steps that write links can be taken. -/
theorem takable_linkSteps (verb : Verb) (var : String) (scope : List String) :
    (links : List WriteLink) → Takable (linkSteps verb var scope links)
  | [] => conserves_nil.takable
  | .mk _ type direction relVar properties target :: rest => by
    have hlink := (conserves_link verb var target.var relVar type direction properties).takable
    have hcarry := (conserves_carry scope).takable.append (target.takable_steps scope)
    have hrest := takable_linkSteps verb var scope rest
    simpa [linkSteps] using (hcarry.append hlink).append hrest

/-- The steps that obtain a far node can be taken. -/
theorem WriteTarget.takable_steps (scope : List String) : (target : WriteTarget) →
    Takable (target.steps scope)
  | .existing var identity => (conserves_found var identity).takable
  | .reference var labels key value =>
    (conserves_entity .merge var labels [(key, value)] [] []).takable
  | .nested plan => plan.takable_stepsIn scope

end

/-- Two values are both null or both not. -/
def SameNull (value other : Value) : Prop :=
  value.isNull = other.isNull

/-- No value of a payload reaches the text of its query: for two payloads of the same shape the
write fails with the same error, up to the kind of the rejected value, or both are drafted, with the
same text and the same names of parameters. -/
theorem text_independent_of_values {registry : Registry} {limit : WriteLimit} {mode : WriteMode}
    {var : String} {model : EntityType} {payload other : Bag}
    (h : BagsAlike SameNull registry limit.depth model payload other) :
    SameOutcome (fun plan plan' : WritePlan => ∃ draft draft',
        Draft.run {} plan.steps = .ok draft ∧ Draft.run {} plan'.steps = .ok draft' ∧
        draft'.query.text = draft.query.text ∧
        KeyedList.keys draft'.query.params = KeyedList.keys draft.query.params)
      ((WritePlan.ofPayload registry limit mode var model payload).mapError CompileError.untyped)
      ((WritePlan.ofPayload registry limit mode var model other).mapError
        CompileError.untyped) := by
  refine SameOutcome.imp (planNode_alike var model payload other h) fun plan plan' _ halike => ?_
  obtain ⟨draft, hdraft⟩ := plan.takable_stepsIn [] {}
  obtain ⟨draft', hdraft'⟩ := plan'.takable_stepsIn [] {}
  have hrun := run_alike (fun _ _ hvalue => hvalue) ⟨[], Twins.refl {}⟩ (halike.steps [])
  rw [hdraft, hdraft'] at hrun
  cases hrun with
  | ok hsame => exact ⟨draft, draft', hdraft, hdraft', hsame.query⟩

/-- Somebody with two friends, of whom one is written out and the other is known. -/
def acquainted (name friend known : String) (since : Int64) : Bag := [
  ("best friends", .list [
    .map [("node", .map [("nickname", .string friend)]), ("since", .int since)],
    .map [("node", .string known)]]),
  ("nickname", .string name)]

/-- Names that would end a pattern, close a quotation or begin a clause leave the text as it is. -/
theorem injected_names_unseen :
    BagsAlike SameNull friends 2 friend (acquainted "Ann" "Bob" "Cleo" 1999)
      (acquainted "`\x7d) DETACH DELETE this //" "$this_nickname" "' OR 1 = 1" 0) ∧
    SameOutcome (fun plan plan' : WritePlan => ∃ draft draft',
        Draft.run {} plan.steps = .ok draft ∧ Draft.run {} plan'.steps = .ok draft' ∧
        draft'.query.text = draft.query.text ∧
        KeyedList.keys draft'.query.params = KeyedList.keys draft.query.params)
      ((WritePlan.ofPayload friends { depth := 2 } .merge rootVar friend
        (acquainted "Ann" "Bob" "Cleo" 1999)).mapError CompileError.untyped)
      ((WritePlan.ofPayload friends { depth := 2 } .merge rootVar friend
        (acquainted "`\x7d) DETACH DELETE this //" "$this_nickname" "' OR 1 = 1" 0)).mapError
        CompileError.untyped) := by
  have hnames (bag other : Bag) (name name' : String)
      (hnoted : defaultedNames other = defaultedNames bag)
      (hname : bag.present? "nickname" = some (.string name))
      (hname' : other.present? "nickname" = some (.string name')) :
      PropertiesAlike SameNull friend bag other := by
    refine ⟨hnoted, fun p hp => ?_⟩
    simp only [friend, List.mem_singleton] at hp
    subst hp
    change Option.Rel SameNull (bag.present? "nickname") (other.present? "nickname")
    rw [hname, hname']
    exact .some rfl
  have halike : BagsAlike SameNull friends 2 friend (acquainted "Ann" "Bob" "Cleo" 1999)
      (acquainted "`\x7d) DETACH DELETE this //" "$this_nickname" "' OR 1 = 1" 0) := by
    refine ⟨hnames _ _ _ _ rfl rfl rfl, fun rel hrel => ?_⟩
    simp only [friend, List.mem_singleton] at hrel
    subst hrel
    refine Option.Rel.some (.cons ?_ (.cons ?_ .nil))
    · refine .held rfl (.cons ⟨rfl, rfl⟩ .nil) (.some (.bag ⟨hnames _ _ _ _ rfl rfl rfl, ?_⟩))
      intro rel hrel
      simp only [friend, List.mem_singleton] at hrel
      subst hrel
      exact Option.Rel.none
    · exact .held rfl .nil (.some (.scalar rfl rfl rfl))
  exact ⟨halike, text_independent_of_values halike⟩

end GraphMapper
