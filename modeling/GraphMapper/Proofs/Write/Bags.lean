import GraphMapper.Proofs.Write.Planning

/-!
# The bags that a write reaches

A payload is a tree of bags: the root, and the bags that stand for far nodes. A plan has a node for
each bag that is reached within the limit, in the same order, and that node writes the split of its
own bag (`planNode_nodes`). What holds of a split of every bag therefore holds of every node of
every plan.
-/

namespace GraphMapper

open Cypher

/-- A bag that is written, and what it is written as. -/
structure WrittenBag where
  mode : WriteMode
  model : EntityType
  bag : Bag

/-- The labels and the split that a bag is written with. -/
def WrittenBag.content (written : WrittenBag) : WriteMode × List String × Split :=
  (written.mode, written.model.labels, splitProperties written.mode written.model written.bag)

/-- The far node of an item, if it is a bag. -/
def farBag? (model : EntityType) (rel : Relationship) (item : Value) : Option Bag :=
  match splitItem model rel item with
  | .ok (.map entries, _) => some entries
  | _ => none

/-- The bags that a write reaches from an item on, as `reach` does from the far bag on. -/
def itemBags (reach : EntityType → Bag → List WrittenBag) (model : EntityType)
    (rel : Relationship) (target : EntityType) (item : Value) : List WrittenBag :=
  match farBag? model rel item with
  | some entries => reach target entries
  | none => []

/-- The bags that a write reaches from what a bag holds under a relationship. -/
def relatedBags (registry : Registry) (reach : EntityType → Bag → List WrittenBag)
    (model : EntityType) (bag : Bag) (rel : Relationship) : List WrittenBag :=
  match bag.present? rel.name, registry.target? rel with
  | some value, some target =>
    (relatedItems rel.shape value).flatMap (itemBags reach model rel target)
  | _, _ => []

/-- The bags that a write reaches within so many levels, each before those nested in it. -/
def writtenBags (registry : Registry) : Nat → WriteMode → EntityType → Bag → List WrittenBag
  | 0, mode, model, bag => [⟨mode, model, bag⟩]
  | levels + 1, mode, model, bag =>
    ⟨mode, model, bag⟩ ::
      model.relationships.flatMap (relatedBags registry (writtenBags registry levels .merge)
        model bag)

mutual

/-- The nodes that a plan writes, each before those nested in it. -/
def WritePlan.nodes : WritePlan → List WritePlan
  | .mk mode var labels split links => .mk mode var labels split links :: linkNodes links

/-- The nodes that are written behind relationships. -/
def linkNodes : List WriteLink → List WritePlan
  | [] => []
  | .mk _ _ _ _ _ target :: rest => target.nodes ++ linkNodes rest

/-- The nodes that are written at the far end. -/
def WriteTarget.nodes : WriteTarget → List WritePlan
  | .nested plan => plan.nodes
  | _ => []

end

/-- The labels and the split that a node is written with. -/
def WritePlan.content : WritePlan → WriteMode × List String × Split
  | .mk mode _ labels split _ => (mode, labels, split)

/-- The nodes behind several lists of relationships. -/
theorem linkNodes_append (links more : List WriteLink) :
    linkNodes (links ++ more) = linkNodes links ++ linkNodes more := by
  induction links with
  | nil => rfl
  | cons link rest ih =>
    obtain ⟨name, type, direction, var, properties, target⟩ := link
    simp [linkNodes, ih]

variable {registry : Registry} {limit : WriteLimit} {levels : Nat} {mode : WriteMode}
  {var : String} {model target : EntityType} {rel : Relationship} {bag : Bag} {plan : WritePlan}

/-- Plans of so many levels have a node for each bag. -/
def NodesOfBags (registry : Registry) (limit : WriteLimit) (levels : Nat) : Prop :=
  ∀ {mode : WriteMode} {var : String} {model : EntityType} {bag : Bag} {plan : WritePlan},
    planNode registry limit levels mode var model bag = .ok plan →
    plan.nodes.map WritePlan.content =
      (writtenBags registry levels mode model bag).map WrittenBag.content

/-- Behind a planned link stand the nodes of the bag of its item, if that is one. -/
theorem plannedLink_nodes (ih : NodesOfBags registry limit levels) {item : Value × Nat}
    {link : WriteLink} (h : PlannedLink registry limit levels var model rel target item link) :
    link.target.nodes.map WritePlan.content =
      (itemBags (writtenBags registry levels .merge) model rel target item.1).map
        WrittenBag.content := by
  obtain ⟨node, properties, far, hsplit, hfar, rfl⟩ := h
  unfold itemBags
  cases hfar with
  | existing => simp [WriteLink.target, WriteTarget.nodes, farBag?, hsplit]
  | nested entries plan hplan =>
    simpa [WriteLink.target, WriteTarget.nodes, farBag?, hsplit] using ih hplan
  | reference value key hscalar hkey =>
    cases node <;>
      simp_all [WriteLink.target, WriteTarget.nodes, farBag?, Value.isScalar]

/-- Behind the planned links of several items stand the nodes of their bags, in their order. -/
theorem plannedLink_nodes_flatMap (ih : NodesOfBags registry limit levels)
    {items : List (Value × Nat)} {links : List WriteLink}
    (h : List.Forall₂ (PlannedLink registry limit levels var model rel target) items links) :
    (linkNodes links).map WritePlan.content =
      ((items.map Prod.fst).flatMap
        (itemBags (writtenBags registry levels .merge) model rel target)).map
        WrittenBag.content := by
  induction h with
  | nil => rfl
  | @cons item link items links hlink _ ihlinks =>
    have hhead := plannedLink_nodes ih hlink
    obtain ⟨name, type, direction, var, properties, target⟩ := link
    simp only [linkNodes, List.map_append, List.map_cons, List.flatMap_cons, ihlinks]
    rw [← hhead]
    rfl

/-- Behind the planned links of a relationship stand the nodes of the bags under it. -/
theorem plannedLinks_nodes (ih : NodesOfBags registry limit levels) {links : List WriteLink}
    (h : PlannedLinks registry limit levels var model bag rel links) :
    (linkNodes links).map WritePlan.content =
      (relatedBags registry (writtenBags registry levels .merge) model bag rel).map
        WrittenBag.content := by
  unfold PlannedLinks at h
  unfold relatedBags
  cases hvalue : bag.present? rel.name with
  | none =>
    rw [hvalue] at h
    rw [h]
    rfl
  | some value =>
    rw [hvalue] at h
    obtain ⟨target, htarget, hlinks⟩ := h
    have hnodes := plannedLink_nodes_flatMap ih hlinks
    rw [List.zipIdx_map_fst] at hnodes
    rw [htarget]
    exact hnodes

/-- Behind the planned links of several relationships stand the nodes of the bags under them. -/
theorem plannedLinks_nodes_flatMap (ih : NodesOfBags registry limit levels)
    {rels : List Relationship} {links : List (List WriteLink)}
    (h : List.Forall₂ (PlannedLinks registry limit levels var model bag) rels links) :
    (linkNodes links.flatten).map WritePlan.content =
      (rels.flatMap (relatedBags registry (writtenBags registry levels .merge) model bag)).map
        WrittenBag.content := by
  induction h with
  | nil => rfl
  | cons hrel _ ihrels =>
    rw [List.flatten_cons, linkNodes_append, List.flatMap_cons, List.map_append,
      List.map_append, ihrels, plannedLinks_nodes ih hrel]

/-- A plan has a node for each bag that is reached within the limit, in the same order, and the
node writes the split of its bag. -/
theorem planNode_nodes : NodesOfBags registry limit levels := by
  induction levels with
  | zero =>
    intro mode var model bag plan h
    obtain ⟨-, rfl⟩ := planNode_zero_eq_ok.mp h
    rfl
  | succ levels ih =>
    intro mode var model bag plan h
    obtain ⟨links, hlinks, rfl⟩ := planNode_succ_eq_ok.mp h
    simp only [WritePlan.nodes, List.map_cons, plannedLinks_nodes_flatMap ih hlinks]
    rfl

end GraphMapper
