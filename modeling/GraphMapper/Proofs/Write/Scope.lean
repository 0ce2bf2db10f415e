import GraphMapper.Proofs.Cypher.Drafting
import GraphMapper.Proofs.Write.Planning
import GraphMapper.Proofs.Write.Splitting

/-!
# A write is well scoped

The variables of a write are made of the variable of its root and of the names of relationships, and
grow from level to level: below an entity every variable is longer than that of the entity, and the
variable of a relationship is one character shorter than that of its far node. So the lengths alone
tell that a variable is fresh, although different relationships may give the same one.

`planNode_leads` threads this through the levels of a plan: an entity is written where only shorter
variables are in scope, and leaves those and its own in scope beside longer ones (`Extends`).
`plan_wellScoped` says it of the whole write.
-/

namespace GraphMapper

open Cypher Statement

/-- The variables of relationship and far node of an item grow on that of the entity. -/
theorem length_linkVar (var : String) (rel : Relationship) (index : Nat) :
    var.length < (linkVar var rel index).length ∧
      (linkVar var rel index).length < (farVar var rel index).length := by
  obtain ⟨hlink, hfar⟩ := length_nestedVar var rel.name
  simp only [linkVar, farVar, String.length_append]
  omega

/-- What variables of a relationship end in has only characters of identifiers. -/
theorem isIdentifierChar_varSuffix (shape : Shape) (index : Nat) :
    ∀ c ∈ (varSuffix shape index).toList, isIdentifierChar c := by
  intro c hc
  unfold varSuffix at hc
  split at hc
  · rw [String.toList_append] at hc
    rcases List.mem_append.mp hc with hc | hc
    · obtain rfl : c = '_' := by simpa using hc
      decide
    · exact isIdentifierChar_toString index c hc
  · simp at hc

section

variable {var : String} (hvar : isIdentifier var.toList) (rel : Relationship) (index : Nat)

include hvar

/-- The variable of a far node is an identifier. -/
theorem isIdentifier_farVar : isIdentifier (farVar var rel index).toList := by
  rw [farVar, String.toList_append]
  exact isIdentifier_append (isIdentifier_nestedVar hvar rel.name .node)
    (isIdentifierChar_varSuffix rel.shape index)

/-- The variable of a relationship is an identifier. -/
theorem isIdentifier_linkVar : isIdentifier (linkVar var rel index).toList := by
  rw [linkVar, String.toList_append]
  exact isIdentifier_append (isIdentifier_nestedVar hvar rel.name .relationship)
    (isIdentifierChar_varSuffix rel.shape index)

end

/-- In scope are the variables that were and `var`, and beside them only longer ones. -/
def Extends (scope : List String) (var : String) (after : List String) : Prop :=
  scope ++ [var] ⊆ after ∧ ∀ name ∈ after, name ∈ scope ++ [var] ∨ var.length < name.length

/-- A scope extends to itself with one variable more. -/
theorem extends_append (scope : List String) (var : String) : Extends scope var (scope ++ [var]) :=
  ⟨List.Subset.refl _, fun _ hname => .inl hname⟩

/-- Nothing in scope is as long as `var`. -/
def Shorter (scope : List String) (var : String) : Prop :=
  ∀ name ∈ scope, name.length < var.length

/-- What is longer than all in scope is not in scope. -/
theorem Shorter.not_mem {scope : List String} {var : String} (h : Shorter scope var) :
    var ∉ scope := fun hmem => Nat.lt_irrefl _ (h var hmem)

/-- Plans of so many levels are well scoped and leave their variable in scope. -/
def ScopedPlans (registry : Registry) (limit : WriteLimit) (levels : Nat) : Prop :=
  ∀ {mode : WriteMode} {var : String} {model : EntityType} {bag : Bag} {plan : WritePlan}
    {scope : List String},
    planNode registry limit levels mode var model bag = .ok plan → isIdentifier var.toList →
    Shorter scope var → Leads scope (plan.stepsIn scope) (Extends scope var)

/-- A link whose far node is obtained, where only `scope` is in scope, under a variable longer than
that of the relationship. -/
structure LinkScoped (scope : List String) (var : String) (link : WriteLink) : Prop where
  target : Leads scope (link.target.steps scope) (Extends scope link.target.var)
  targetVar : isIdentifier link.target.var.toList
  relVar : isIdentifier link.var.toList
  longer : var.length < link.var.length
  shorter : link.var.length < link.target.var.length

variable {registry : Registry} {limit : WriteLimit} {levels : Nat} {mode : WriteMode}
  {var : String} {model target : EntityType} {rel : Relationship} {bag : Bag} {plan : WritePlan}
  {scope : List String}

/-- A far node is obtained under its variable, which is left in scope. -/
theorem plannedFar_leads (ih : ScopedPlans registry limit levels) {node : Value}
    {far : WriteTarget} (h : PlannedFar registry limit levels target var node far)
    (hvar : isIdentifier var.toList) (hshorter : Shorter scope var) :
    Leads scope (far.steps scope) (Extends scope var) ∧ far.var = var := by
  cases h with
  | existing identity labels properties =>
    refine ⟨(leads_found hshorter.not_mem hvar identity).imp ?_, rfl⟩
    rintro mid rfl
    exact extends_append scope var
  | nested entries plan hplan =>
    exact ⟨ih hplan hvar hshorter, planNode_var hplan⟩
  | reference value key hscalar hkey =>
    refine ⟨(leads_entity hshorter.not_mem hvar target.labels [(key, node)] [] []
      (absurd rfl)).imp ?_, rfl⟩
    rintro mid rfl
    exact extends_append scope var

/-- What is planned for an item is a link whose far node can be obtained. -/
theorem plannedLink_scoped (ih : ScopedPlans registry limit levels) {item : Value × Nat}
    {link : WriteLink} (h : PlannedLink registry limit levels var model rel target item link)
    (hvar : isIdentifier var.toList) (hshorter : Shorter scope var) :
    LinkScoped (scope ++ [var]) var link := by
  obtain ⟨node, properties, far, -, hfar, rfl⟩ := h
  obtain ⟨hlonger, hlink⟩ := length_linkVar var rel item.2
  have hfarShorter : Shorter (scope ++ [var]) (farVar var rel item.2) := by
    intro name hname
    rcases List.mem_append.mp hname with hname | hname
    · have := hshorter name hname
      omega
    · obtain rfl := List.mem_singleton.mp hname
      omega
  obtain ⟨hleads, hfarVar⟩ :=
    plannedFar_leads ih hfar (isIdentifier_farVar hvar rel item.2) hfarShorter
  constructor
  case target => simpa only [WriteLink.target, hfarVar] using hleads
  case targetVar => simpa only [WriteLink.target, hfarVar] using isIdentifier_farVar hvar rel item.2
  case relVar => exact isIdentifier_linkVar hvar rel item.2
  case longer => exact hlonger
  case shorter => simpa only [WriteLink.target, WriteLink.var, hfarVar] using hlink

/-- What is longer than `var` and shorter than the far node of a link is not in scope when the far
node has been obtained. -/
theorem not_mem_of_between {mid : List String} {relVar farVar : String}
    (hshorter : Shorter scope var) (hmid : Extends (scope ++ [var]) farVar mid)
    (hlonger : var.length < relVar.length) (hfar : relVar.length < farVar.length) :
    relVar ∉ mid := by
  intro hmem
  -- All in scope is no longer than `var`, or at least as long as the far node.
  rcases hmid.2 relVar hmem with hmem | hlong
  · rcases List.mem_append.mp hmem with hmem | hmem
    · rcases List.mem_append.mp hmem with hmem | hmem
      · have := hshorter relVar hmem
        omega
      · obtain rfl := List.mem_singleton.mp hmem
        omega
    · obtain rfl := List.mem_singleton.mp hmem
      omega
  · omega

/-- What a link leaves in scope are the variables that were there and longer ones. -/
theorem extends_of_link {mid : List String} {relVar farVar : String}
    (hmid : Extends (scope ++ [var]) farVar mid) (hlonger : var.length < relVar.length)
    (hfar : relVar.length < farVar.length) : Extends scope var (mid ++ [relVar]) := by
  refine ⟨fun name hname => List.mem_append_left _ (hmid.1 (List.mem_append_left _ hname)), ?_⟩
  intro name hname
  rcases List.mem_append.mp hname with hname | hname
  · rcases hmid.2 name hname with hname | hlong
    · rcases List.mem_append.mp hname with hname | hname
      · exact .inl hname
      · obtain rfl := List.mem_singleton.mp hname
        exact .inr (by omega)
    · exact .inr (by omega)
  · obtain rfl := List.mem_singleton.mp hname
    exact .inr hlonger

/-- A link is written where the variables of the entity and its ancestors are taken over, and leaves
these in scope beside longer ones. -/
theorem link_leads (verb : Verb) {name type relVar : String} {direction : Direction}
    {properties : Bag} {far : WriteTarget} {bound : List String}
    (hlink : LinkScoped (scope ++ [var]) var (.mk name type direction relVar properties far))
    (hvar : isIdentifier var.toList) (hshorter : Shorter scope var)
    (hbound : Extends scope var bound) :
    Leads bound ((.carry (scope ++ [var]) :: far.steps (scope ++ [var]))
      ++ ([.start verb var [] [], .relationship (some relVar) [type] direction none,
        .to far.var [] []] ++ Step.setProperties relVar properties)) (Extends scope var) := by
  obtain ⟨hfar, hfarVar, hrelVar, hlonger, hfarLonger⟩ := hlink
  simp only [WriteLink.target, WriteLink.var] at hfar hfarVar hrelVar hlonger hfarLonger
  -- The far node is obtained where only the entity and its ancestors are in scope.
  have hobtained : Leads bound (.carry (scope ++ [var]) :: far.steps (scope ++ [var]))
      (Extends (scope ++ [var]) far.var) :=
    (leads_carry hbound.1).append (by rintro mid rfl; exact hfar)
  refine hobtained.append fun mid hmid => ?_
  have hvarMem : var ∈ mid := hmid.1 (by simp)
  have hfarMem : far.var ∈ mid := hmid.1 (by simp)
  have hfresh := not_mem_of_between hshorter hmid hlonger hfarLonger
  refine (leads_link hvarMem hfarMem hvar hfarVar hfresh hrelVar type direction properties).imp ?_
  rintro after rfl
  exact extends_of_link hmid hlonger hfarLonger

/-- Links are written one after the other, and leave the variables of the entity and its ancestors
in scope beside longer ones. -/
theorem linkSteps_leads (verb : Verb) {links : List WriteLink}
    (hlinks : ∀ link ∈ links, LinkScoped (scope ++ [var]) var link)
    (hvar : isIdentifier var.toList) (hshorter : Shorter scope var) {bound : List String}
    (hbound : Extends scope var bound) :
    Leads bound (linkSteps verb var (scope ++ [var]) links) (Extends scope var) := by
  induction links generalizing bound with
  | nil => exact leads_nil hbound
  | cons link rest ih =>
    have hlink := hlinks link List.mem_cons_self
    obtain ⟨name, type, direction, relVar, properties, far⟩ := link
    have hsteps := (link_leads verb hlink hvar hshorter hbound).append fun mid hmid =>
      ih (fun link hmem => hlinks link (List.mem_cons_of_mem _ hmem)) hmid
    simpa only [linkSteps, List.append_assoc] using hsteps

/-- Only a merge sets anything on creation. -/
theorem verb_of_onCreate_ne_nil (h : (splitProperties mode model bag).onCreate ≠ []) :
    mode.verb = .merge := by
  cases mode with
  | create => exact absurd onCreate_of_create h
  | merge => rfl

/-- An entity is written before its links, of which it is an end. -/
theorem entity_leads {links : List WriteLink}
    (hlinks : ∀ link ∈ links, LinkScoped (scope ++ [var]) var link)
    (hvar : isIdentifier var.toList) (hshorter : Shorter scope var) :
    Leads scope ((WritePlan.mk mode var model.labels (splitProperties mode model bag) links).stepsIn
      scope) (Extends scope var) := by
  have hmerge := @verb_of_onCreate_ne_nil mode model bag
  refine (leads_entity hshorter.not_mem hvar model.labels _ _ _ hmerge).append ?_
  rintro mid rfl
  exact linkSteps_leads mode.verb hlinks hvar hshorter (extends_append scope var)

/-- An entity and all that is planned below it is written where only shorter variables are in scope,
and leaves those and its own in scope beside longer ones. -/
theorem planNode_leads : ScopedPlans registry limit levels := by
  -- Far bags are planned for one level less, in a scope that has grown by the entity.
  induction levels with
  | zero =>
    intro mode var model bag plan scope h hvar hshorter
    obtain ⟨-, rfl⟩ := planNode_zero_eq_ok.mp h
    exact entity_leads (fun _ hlink => absurd hlink List.not_mem_nil) hvar hshorter
  | succ levels ih =>
    intro mode var model bag plan scope h hvar hshorter
    obtain ⟨links, hlinks, rfl⟩ := planNode_succ_eq_ok.mp h
    refine entity_leads (fun link hmem => ?_) hvar hshorter
    obtain ⟨rel, target, item, hlink⟩ := exists_plannedLink_of_mem hlinks hmem
    exact plannedLink_scoped ih hlink hvar hshorter

/-- Whatever the payload, the steps of its plan can be taken from any draft, and the statements they
add are well scoped with nothing in scope before: variables are bound before they are used and
bound afresh, all of them are plain identifiers, and the root is still in scope at the end. -/
theorem plan_wellScoped (h : WritePlan.ofPayload registry limit mode var model bag = .ok plan)
    (hvar : isIdentifier var.toList) (draft : Draft) :
    ∃ after added, draft.run plan.steps = .ok after ∧
      after.statements = draft.statements ++ added ∧ WellScoped [] added ∧
      var ∈ scopeAfterAll [] added := by
  have hshorter : Shorter [] var := fun name hname => absurd hname List.not_mem_nil
  obtain ⟨after, added, hrun, hstatements, hscoped, hafter⟩ := planNode_leads h hvar hshorter draft
  exact ⟨after, added, hrun, hstatements, hscoped, hafter.1 (by simp)⟩

/-- Friends are known by their nicknames, and the name of their relationship is no identifier. -/
def friend : EntityType where
  name := "Friend"
  labels := ["Friend"]
  properties := [Property.asPrimary { name := "nickname", type := .string }]
  relationships := [
    { name := "best friends", shape := .relationships, type := "FRIEND_OF", direction := .both,
      target := .model "Friend", properties := [{ name := "since", type := .integer }] }]
  labels_ne_nil := by decide
  labels_ascending := by decide
  properties_nodup := by decide
  relationships_nodup := by decide
  keys_disjoint := by decide
  primary_le_one := by decide

/-- The registry of friends. -/
def friends : Registry := ⟨[friend], by decide⟩

/-- Somebody whose friend has a friend. -/
def befriended : Bag := [
  ("best friends", .list [.map [
    ("node", .map [
      ("best friends", .list [.map [("node", .string "Cleo")]]),
      ("nickname", .string "Bob")]),
    ("since", .int 1999)]]),
  ("nickname", .string "Ann")]

/-- The write of a friend with a friend, three nodes in all, is well scoped. -/
theorem befriended_wellScoped :
    ∃ plan, WritePlan.ofPayload friends {} .merge rootVar friend befriended = .ok plan ∧
      plan.nodeCount = 3 ∧
      ∃ after added, Draft.run {} plan.steps = .ok after ∧ after.statements = added ∧
        WellScoped [] added ∧ rootVar ∈ scopeAfterAll [] added := by
  have hplan : ∃ plan, WritePlan.ofPayload friends {} .merge rootVar friend befriended = .ok plan ∧
      plan.nodeCount = 3 := ⟨_, rfl, rfl⟩
  obtain ⟨plan, hplan, hcount⟩ := hplan
  obtain ⟨after, added, hrun, hstatements, hscoped, hroot⟩ :=
    plan_wellScoped hplan (by decide) {}
  exact ⟨plan, hplan, hcount, after, added, hrun, hstatements, hscoped, hroot⟩

end GraphMapper
