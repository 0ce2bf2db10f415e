import GraphMapper.Proofs.Cypher.Writes
import GraphMapper.Proofs.Write.Places
import GraphMapper.Proofs.Write.Scope

/-!
# What a plan writes of nodes

A plan writes an entity for each of its nodes, and merges one for each reference by a scalar
(`WritePlan.nodeWrites`). The steps of the plan add statements that write just that
(`planNode_adds`): behind each entity, the statements that join it to another one write nothing of
either.

What is written is written by a node of the plan or by a link of one (`exists_of_mem_nodeWrites`),
and what hops lead to is written (`mem_nodeWrites_of_nodeAt?`, `mem_nodeWrites_of_targetAt?`).
-/

namespace GraphMapper

open Cypher

/-- What an entity is written as in this mode. -/
def WriteMode.nodeWrite : WriteMode → NodeMerge → NodeWrite
  | .create => .create
  | .merge => .merge

/-- What a plan writes of its own entity. -/
def WritePlan.nodeWrite : WritePlan → NodeWrite
  | .mk mode var labels split _ =>
    mode.nodeWrite ⟨var, labels, split.inline, split.onCreate, split.set⟩

/-- What a far node is merged as, if it is referred to by a scalar. -/
def WriteTarget.referenceWrite? : WriteTarget → Option NodeWrite
  | .reference var labels key value => some (.merge { var, labels, inline := [(key, value)] })
  | _ => none

mutual

/-- What a plan writes of nodes, in the order of its statements. -/
def WritePlan.nodeWrites : WritePlan → List NodeWrite
  | .mk mode var labels split links =>
    (WritePlan.mk mode var labels split links).nodeWrite :: linkNodeWrites links

/-- What is written of the nodes behind relationships. -/
def linkNodeWrites : List WriteLink → List NodeWrite
  | [] => []
  | .mk _ _ _ _ _ target :: rest => target.nodeWrites ++ linkNodeWrites rest

/-- What is written of the nodes from the far end on. -/
def WriteTarget.nodeWrites : WriteTarget → List NodeWrite
  | .existing _ _ => []
  | .reference var labels key value => [.merge { var, labels, inline := [(key, value)] }]
  | .nested plan => plan.nodeWrites

end

/-! ## What the steps of a plan add -/

section

variable {registry : Registry} {limit : WriteLimit} {levels : Nat} {mode : WriteMode}
  {var : String} {model target : EntityType} {rel : Relationship} {bag : Bag} {plan : WritePlan}
  {scope : List String}

/-- Plans of so many levels add what they write of nodes. -/
def AddedPlans (registry : Registry) (limit : WriteLimit) (levels : Nat) : Prop :=
  ∀ {mode : WriteMode} {var : String} {model : EntityType} {bag : Bag} {plan : WritePlan}
    {scope : List String},
    planNode registry limit levels mode var model bag = .ok plan → isIdentifier var.toList →
    Adds (plan.stepsIn scope) plan.nodeWrites

/-- A link whose far node is obtained by steps that add what they write of it, under variables that
are identifiers. -/
structure LinkAdds (scope : List String) (link : WriteLink) : Prop where
  target : Adds (link.target.steps scope) link.target.nodeWrites
  targetVar : isIdentifier link.target.var.toList
  relVar : isIdentifier link.var.toList

/-- A far node is obtained by steps that add what they write of it. -/
theorem plannedFar_adds (ih : AddedPlans registry limit levels) {node : Value} {far : WriteTarget}
    (h : PlannedFar registry limit levels target var node far) (hvar : isIdentifier var.toList) :
    Adds (far.steps scope) far.nodeWrites ∧ far.var = var := by
  cases h with
  | existing identity labels properties => exact ⟨adds_found hvar identity, rfl⟩
  | nested entries plan hplan => exact ⟨ih hplan hvar, planNode_var hplan⟩
  | reference value key hscalar hkey =>
    have hinline : ∀ entry ∈ [(key, node)], entry.2.isNull = false := by
      intro entry hentry
      obtain rfl := List.mem_singleton.mp hentry
      exact Value.isNull_of_isReference (by cases node <;> simp_all [Value.isReference])
    exact ⟨adds_entity (.inr ⟨rfl, rfl⟩) hvar target.labels hinline [] [] (absurd rfl), rfl⟩

/-- What is planned for an item is a link whose far node is obtained so. -/
theorem plannedLink_adds (ih : AddedPlans registry limit levels) {item : Value × Nat}
    {link : WriteLink} (h : PlannedLink registry limit levels var model rel target item link)
    (hvar : isIdentifier var.toList) : LinkAdds scope link := by
  obtain ⟨node, properties, far, -, hfar, rfl⟩ := h
  have hfarVar := isIdentifier_farVar hvar rel item.2
  obtain ⟨hadds, hname⟩ := @plannedFar_adds _ _ _ _ _ scope ih _ _ hfar hfarVar
  exact ⟨hadds, hname ▸ hfarVar, isIdentifier_linkVar hvar rel item.2⟩

/-- The steps of links add what is written of the nodes behind them. -/
theorem linkSteps_adds (verb : Verb) (hvar : isIdentifier var.toList) {links : List WriteLink}
    (hlinks : ∀ link ∈ links, LinkAdds scope link) :
    Adds (linkSteps verb var scope links) (linkNodeWrites links) := by
  induction links with
  | nil => exact adds_nil
  | cons link rest ih =>
    obtain ⟨hfar, hfarVar, hrelVar⟩ := hlinks link List.mem_cons_self
    obtain ⟨name, type, direction, relVar, properties, far⟩ := link
    have hrest := ih fun link hmem => hlinks link (List.mem_cons_of_mem _ hmem)
    have hjoined := adds_link verb hvar hfarVar hrelVar type direction properties
    have hsteps := (((adds_carry scope).append hfar).append hjoined).append hrest
    simpa only [linkSteps, linkNodeWrites, WriteLink.target, WriteLink.var, List.append_assoc,
      List.nil_append, List.append_nil, List.singleton_append] using hsteps

/-- The steps of an entity and of its links add what is written of them. -/
theorem entity_adds {links : List WriteLink} (hvar : isIdentifier var.toList)
    (hlinks : ∀ link ∈ links, LinkAdds (scope ++ [var]) link) :
    Adds ((WritePlan.mk mode var model.labels (splitProperties mode model bag) links).stepsIn scope)
      (WritePlan.mk mode var model.labels (splitProperties mode model bag) links).nodeWrites := by
  have hverb : mode.verb = .create ∧ mode.nodeWrite = .create ∨
      mode.verb = .merge ∧ mode.nodeWrite = .merge := by
    cases mode
    · exact .inl ⟨rfl, rfl⟩
    · exact .inr ⟨rfl, rfl⟩
  have hinline : ∀ entry ∈ (splitProperties mode model bag).inline, entry.2.isNull = false :=
    fun _ hentry => @isNull_of_mem_split mode model bag .inline _ hentry
  exact (adds_entity hverb hvar model.labels hinline _ _ verb_of_onCreate_ne_nil).append
    (linkSteps_adds mode.verb hvar hlinks)

/-- The steps of a plan add what it writes of nodes. -/
theorem planNode_adds : AddedPlans registry limit levels := by
  -- Far bags are planned for one level less.
  induction levels with
  | zero =>
    intro mode var model bag plan scope h hvar
    obtain ⟨-, rfl⟩ := planNode_zero_eq_ok.mp h
    exact entity_adds hvar fun _ hlink => absurd hlink List.not_mem_nil
  | succ levels ih =>
    intro mode var model bag plan scope h hvar
    obtain ⟨links, hlinks, rfl⟩ := planNode_succ_eq_ok.mp h
    refine entity_adds hvar fun link hmem => ?_
    obtain ⟨rel, target, item, hlink⟩ := exists_plannedLink_of_mem hlinks hmem
    exact plannedLink_adds ih hlink hvar

end

/-! ## Who writes what -/

section

variable {plan node : WritePlan} {hop : Hop} {path : List Hop} {write : NodeWrite}

mutual

/-- What a plan writes, one of its nodes or a reference of one writes. -/
theorem WritePlan.exists_of_mem_nodeWrites : (plan : WritePlan) → write ∈ plan.nodeWrites →
    ∃ node ∈ plan.nodes, write = node.nodeWrite ∨
      ∃ link ∈ node.links, link.target.referenceWrite? = some write
  | .mk mode var labels split links, h => by
    rcases List.mem_cons.mp h with rfl | h
    · exact ⟨_, List.mem_cons_self, .inl rfl⟩
    · rcases exists_of_mem_linkNodeWrites links h with ⟨link, hlink, hwrite⟩ | ⟨node, hnode, hwrite⟩
      · exact ⟨_, List.mem_cons_self, .inr ⟨link, hlink, hwrite⟩⟩
      · exact ⟨node, List.mem_cons_of_mem _ hnode, hwrite⟩

/-- What is written behind links, a reference or a node behind one of them writes. -/
theorem exists_of_mem_linkNodeWrites : (links : List WriteLink) → write ∈ linkNodeWrites links →
    (∃ link ∈ links, link.target.referenceWrite? = some write) ∨
      ∃ node ∈ linkNodes links, write = node.nodeWrite ∨
        ∃ link ∈ node.links, link.target.referenceWrite? = some write
  | .mk name type direction relVar properties target :: rest, h => by
    rcases List.mem_append.mp h with h | h
    · rcases target.exists_of_mem_nodeWrites h with hreference | ⟨node, hnode, hwrite⟩
      · exact .inl ⟨_, List.mem_cons_self, hreference⟩
      · exact .inr ⟨node, List.mem_append_left _ hnode, hwrite⟩
    · rcases exists_of_mem_linkNodeWrites rest h with ⟨link, hlink, hwrite⟩ | ⟨node, hnode, hwrite⟩
      · exact .inl ⟨link, List.mem_cons_of_mem _ hlink, hwrite⟩
      · exact .inr ⟨node, List.mem_append_right _ hnode, hwrite⟩

/-- What is written from a far end on, it writes itself as a reference, or a node there does. -/
theorem WriteTarget.exists_of_mem_nodeWrites : (target : WriteTarget) → write ∈ target.nodeWrites →
    target.referenceWrite? = some write ∨
      ∃ node ∈ target.nodes, write = node.nodeWrite ∨
        ∃ link ∈ node.links, link.target.referenceWrite? = some write
  | .reference _ _ _ _, h => .inl (congrArg some (List.mem_singleton.mp h).symm)
  | .nested plan, h => .inr (plan.exists_of_mem_nodeWrites h)

end

/-- A plan writes its own entity. -/
theorem nodeWrite_mem_nodeWrites (plan : WritePlan) : plan.nodeWrite ∈ plan.nodeWrites := by
  cases plan
  exact List.mem_cons_self

/-- A plan writes what is written behind each of its links. -/
theorem mem_nodeWrites_of_mem_links {link : WriteLink} (hlink : link ∈ plan.links)
    (h : write ∈ link.target.nodeWrites) : write ∈ plan.nodeWrites := by
  have hlinks : ∀ links : List WriteLink, link ∈ links → write ∈ linkNodeWrites links := by
    intro links hmem
    induction links with
    | nil => cases hmem
    | cons head rest ih =>
      obtain ⟨name, type, direction, relVar, properties, target⟩ := head
      rcases List.mem_cons.mp hmem with rfl | hmem
      · exact List.mem_append_left _ h
      · exact List.mem_append_right _ (ih hmem)
  obtain ⟨mode, var, labels, split, links⟩ := plan
  exact List.mem_cons_of_mem _ (hlinks links hlink)

/-- The link for an item is one of the links. -/
theorem mem_links_of_linkAt? {link : WriteLink} (h : plan.linkAt? hop = some link) :
    link ∈ plan.links :=
  List.mem_of_mem_filter (List.mem_of_getElem? h)

/-- A plan writes what the nodes that hops lead to write. -/
theorem mem_nodeWrites_of_nodeAt? (hnode : plan.nodeAt? path = some node)
    (h : write ∈ node.nodeWrites) : write ∈ plan.nodeWrites := by
  induction path generalizing plan with
  | nil =>
    cases hnode
    exact h
  | cons hop rest ih =>
    unfold WritePlan.nodeAt? at hnode
    split at hnode
    · next inside hinside =>
      obtain ⟨link, hlink, htarget⟩ := Option.map_eq_some_iff.mp hinside
      refine mem_nodeWrites_of_mem_links (mem_links_of_linkAt? hlink) ?_
      rw [htarget]
      exact ih hnode
    · cases hnode

/-- A plan writes what the targets that hops lead to write. -/
theorem mem_nodeWrites_of_targetAt? {target : WriteTarget}
    (htarget : plan.targetAt? path hop = some target) (h : write ∈ target.nodeWrites) :
    write ∈ plan.nodeWrites := by
  obtain ⟨node, hnode, htarget⟩ := Option.bind_eq_some_iff.mp htarget
  obtain ⟨link, hlink, rfl⟩ := Option.map_eq_some_iff.mp htarget
  exact mem_nodeWrites_of_nodeAt? hnode
    (mem_nodeWrites_of_mem_links (mem_links_of_linkAt? hlink) h)

end

/-- What an entity of a type is written as from a bag. -/
def WriteMode.entityWrite (mode : WriteMode) (var : String) (model : EntityType) (bag : Bag) :
    NodeWrite :=
  mode.nodeWrite {
    var := var
    labels := model.labels
    inline := (splitProperties mode model bag).inline
    onCreate := (splitProperties mode model bag).onCreate
    set := (splitProperties mode model bag).set }

/-- What is written of a node comes from a bag that hops of so many levels lead to, or from a scalar
that one more hop leads to. -/
inductive WrittenFrom (registry : Registry) (levels : Nat) (model : EntityType) (bag : Bag) :
    NodeWrite → Prop
  | bag {path : List Hop} {owner : EntityType} {inner : Bag} (mode : WriteMode) (var : String)
      (hpath : path.length ≤ levels)
      (hbag : bagAt? registry model bag path = some (owner, inner)) :
    WrittenFrom registry levels model bag (mode.entityWrite var owner inner)
  | reference {path : List Hop} {hop : Hop} {rel : Relationship} {value : Value}
      {target : EntityType} {key : String} (var : String)
      (hplace : farAt? registry model bag path hop = some (rel, value))
      (hscalar : value.isScalar = true) (htarget : registry.target? rel = some target)
      (hkey : target.primaryKey? = some key) :
    WrittenFrom registry levels model bag
      (.merge { var := var, labels := target.labels, inline := [(key, value)] })

section

variable {registry : Registry} {limit : WriteLimit} {levels : Nat} {mode : WriteMode}
  {var key : String} {model : EntityType} {bag : Bag} {plan : WritePlan} {write : NodeWrite}

/-- A planned entity is written from its bag. -/
theorem nodeWrite_eq_entityWrite
    (h : planNode registry limit levels mode var model bag = .ok plan) :
    plan.nodeWrite = mode.entityWrite var model bag := by
  have hvar := planNode_var h
  obtain ⟨hmode, hlabels, hsplit⟩ := planNode_spec h
  obtain ⟨mode', var', labels, split, links⟩ := plan
  obtain rfl : mode' = mode := hmode
  obtain rfl : var' = var := hvar
  obtain rfl : labels = model.labels := hlabels
  obtain rfl : split = splitProperties mode' model bag := hsplit
  rfl

/-- A reference that is planned is that to a scalar. -/
theorem exists_reference_of_mem_links
    (h : planNode registry limit levels mode var model bag = .ok plan) {link : WriteLink}
    (hlink : link ∈ plan.links) (hwrite : link.target.referenceWrite? = some write) :
    ∃ (hop : Hop) (rel : Relationship) (value : Value) (target : EntityType) (key : String),
      hop.lead? model bag = some (rel, value) ∧ value.isScalar = true ∧
      registry.target? rel = some target ∧ target.primaryKey? = some key ∧
      write = .merge { var := farVar var rel (hop.index.getD 0), labels := target.labels,
                       inline := [(key, value)] } := by
  cases levels with
  | zero =>
    obtain ⟨-, rfl⟩ := planNode_zero_eq_ok.mp h
    cases hlink
  | succ levels =>
    obtain ⟨hop, rel, target, value, hlead, htarget, -, hfar⟩ := exists_lead_of_mem_links h hlink
    generalize link.target = far at hwrite hfar
    cases hfar with
    | existing => cases hwrite
    | nested => cases hwrite
    | reference value key hscalar hkey =>
      cases hwrite
      exact ⟨hop, rel, _, target, key, hlead, hscalar, htarget, hkey, rfl⟩

/-- What a plan writes comes from the bags and the scalars in its payload. -/
theorem writtenFrom_of_mem_nodeWrites
    (h : planNode registry limit levels mode var model bag = .ok plan)
    (hwrite : write ∈ plan.nodeWrites) : WrittenFrom registry levels model bag write := by
  obtain ⟨node, hnode, hnodeWrite⟩ := plan.exists_of_mem_nodeWrites hwrite
  obtain ⟨path, owner, inner, hpath, hinner, -, hplanned⟩ := exists_planned_of_mem_nodes h hnode
  rcases hnodeWrite with rfl | ⟨link, hlink, hreference⟩
  · rw [nodeWrite_eq_entityWrite hplanned]
    exact .bag _ _ hpath hinner
  · obtain ⟨hop, rel, value, target, key, hlead, hscalar, htarget, hkey, rfl⟩ :=
      exists_reference_of_mem_links hplanned hlink hreference
    have hplace : farAt? registry model bag path hop = some (rel, value) := by
      rw [farAt?, hinner, Option.bind_some]
      exact hlead
    exact .reference _ hplace hscalar htarget hkey

/-- An entity is written with what the split of its bag holds. -/
theorem entries_entityWrite :
    (mode.entityWrite var model bag).node.entries = (splitProperties mode model bag).entries := by
  cases mode <;> rfl

/-- An entity that is written has the labels of its type. -/
theorem labels_entityWrite : (mode.entityWrite var model bag).node.labels = model.labels := by
  cases mode <;> rfl

/-- Nothing that is written of a node from a payload is null. -/
theorem WrittenFrom.null_not_mem (h : WrittenFrom registry levels model bag write) :
    (key, Value.null) ∉ write.node.entries := by
  intro hmem
  cases h with
  | bag mode var hpath hbag =>
    rw [entries_entityWrite] at hmem
    cases isNull_of_mem_entries hmem
  | reference var hplace hscalar htarget hkey =>
    obtain ⟨-, rfl⟩ := Prod.mk.inj (List.mem_singleton.mp hmem)
    cases hscalar

end

end GraphMapper
