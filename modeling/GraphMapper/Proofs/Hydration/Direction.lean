import GraphMapper.Proofs.Hydration

/-!
# The ends of a loaded relationship

A relationship is projected along a path from the node that declares it, and the projection holds
neither of its ends: which of the two nodes it starts at is inferred from the declaration. Which
stored relationships a path leads over is said of its pattern alone (`RelationshipPattern.Fits`).

A relationship that is declared with a direction is loaded with its ends, and so is one without a
direction if it was found from its start. Found from its end, it is loaded the other way round than
it is stored (`readLink_ends_iff`), while the form that is handed out when two nodes are related
keeps the ends as they are stored.
-/

namespace GraphMapper

open Cypher Hydration

/-- A stored relationship fits a pattern between two nodes: it is of one of the types, if there are
any, and goes the way of the arrow, or either way where there is none. The pattern stands for one
relationship, not for several in a row. -/
def Cypher.RelationshipPattern.Fits (pattern : RelationshipPattern) (stored : StoredRelationship)
    (near far : Identity) : Prop :=
  (pattern.types = [] ∨ stored.type ∈ pattern.types) ∧ pattern.hops = none ∧
    match pattern.direction with
    | .outgoing => (near, far) = (stored.startNode, stored.endNode)
    | .incoming => (far, near) = (stored.startNode, stored.endNode)
    | .both => (near, far) = (stored.startNode, stored.endNode) ∨
      (far, near) = (stored.startNode, stored.endNode)

/-- A path leads over a stored relationship from one node to another. -/
inductive Cypher.Path.LeadsOver (stored : StoredRelationship) (near far : Identity) : Path → Prop
  | mk {left right : NodePattern} {pattern : RelationshipPattern}
      (h : pattern.Fits stored near far) :
    LeadsOver stored near far ⟨[.node left, .relationship pattern, .node right]⟩

/-- Entries are the projection of a stored relationship with a far node: they have its identity and
type, and the far node is under the key of the declaration. -/
structure ProjectsLink (rel : Relationship) (stored : StoredRelationship) (far : Identity)
    (entries : Bag) : Prop where
  identity : HasIdentity entries stored.identity
  type : HasType entries stored.type
  far : ∃ farEntries, KeyedList.get? entries rel.nodeKey = some (.map farEntries) ∧
    HasIdentity farEntries far

variable {registry : Registry} {levels : Nat} {rel : Relationship} {stored : StoredRelationship}
  {subject opposite : Identity} {entries : Bag} {link : NodeLink}

/-- A path along a declared relationship leads over what goes its way. -/
theorem leadsOver_path {var relVar nodeVar : String} {labels : List String}
    (h : (Projection.path var relVar nodeVar rel labels).LeadsOver stored subject opposite) :
    match rel.direction with
    | .outgoing => (subject, opposite) = (stored.startNode, stored.endNode)
    | .incoming => (opposite, subject) = (stored.startNode, stored.endNode)
    | .both => (subject, opposite) = (stored.startNode, stored.endNode) ∨
      (opposite, subject) = (stored.startNode, stored.endNode) := by
  generalize hpath : Projection.path var relVar nodeVar rel labels = path at h
  cases h with
  | mk hfits =>
    cases hpath
    exact hfits.2.2

/-- What was inferred from the declaration are the stored ends exactly if a relationship without a
direction was found from its start. -/
theorem inferred_ends_iff {var relVar nodeVar : String} {labels : List String}
    (h : (Projection.path var relVar nodeVar rel labels).LeadsOver stored subject opposite) :
    (if rel.direction = .incoming then (opposite, subject) else (subject, opposite)) =
        (stored.startNode, stored.endNode) ↔
      (rel.direction = .both → subject = stored.startNode) := by
  have hleads := leadsOver_path h
  cases hdirection : rel.direction with
  | incoming =>
    rw [hdirection] at hleads
    simp [hleads]
  | outgoing =>
    rw [hdirection] at hleads
    simp [hleads]
  | both =>
    rw [hdirection] at hleads
    simp only [reduceCtorEq, if_false, forall_const, Prod.mk.injEq] at hleads ⊢
    refine ⟨And.left, fun hstart => ⟨hstart, ?_⟩⟩
    -- Seen from its start the relationship may be a loop, so that both ways fit.
    rcases hleads with ⟨-, hend⟩ | ⟨hopposite, hend⟩
    · exact hend
    · rw [hopposite, ← hend, hstart]

/-- Entries have one identity at most. -/
theorem HasIdentity.unique {identity other : Identity} (h : HasIdentity entries identity)
    (hother : HasIdentity entries other) : identity = other := by
  have hsame : some (Value.int identity) = some (.int other) := h.symm.trans hother
  cases hsame
  rfl

/-- Entries have one type at most. -/
theorem HasType.unique {type other : String} (h : HasType entries type)
    (hother : HasType entries other) : type = other := by
  have hsame : some (Value.string type) = some (.string other) := h.symm.trans hother
  cases hsame
  rfl

/-- A loaded node has the identity that it was found with. -/
theorem Projection.Mirrors.identity_eq {projection : Projection} {target : Option EntityType}
    {node : Node} (h : projection.Mirrors registry target (.map entries) node)
    (hidentity : HasIdentity entries opposite) : node.identity = opposite := by
  cases projection with
  | relationship => exact h.elim
  | node var properties fields =>
    obtain ⟨_, hentries, hnode, -, -⟩ := h
    cases hentries
    exact hnode.identity.unique hidentity

/-- A relationship that was projected along its path is loaded with its identity, its type and the
far node. Its ends are those that it is stored with, and that it is handed out with, unless it is
declared without a direction and was found from its end. -/
theorem readLink_ends_iff {var : String} {owner : EntityType} {target : Option EntityType}
    {name : String} {path : Path} {single : Bool} {projection : Projection}
    (hshape : rel.shape.isRelationship = true) (htarget : registry.target rel = .ok target)
    (hfield : Projection.eagerField registry (Projection.ofModel registry levels) var owner rel =
      .ok (.mk name path single projection))
    (hleads : path.LeadsOver stored subject opposite)
    (hshaped : projection.Shaped registry (.map entries))
    (hprojects : ProjectsLink rel stored opposite entries) :
    ∃ link, readLink (Hydration.node registry levels target.isSome target) rel subject
        (.map entries) = .ok link ∧
      link.identity = stored.identity ∧ link.type = stored.type ∧
      link.other.identity = opposite ∧
      (NodeLink.ofStored rel stored link.other).ends = (stored.startNode, stored.endNode) ∧
      (link.ends = (stored.startNode, stored.endNode) ↔
        (rel.direction = .both → subject = stored.startNode)) := by
  obtain ⟨target', node, htarget', hnode, hmk⟩ := Projection.eagerField_eq_ok.mp hfield
  cases htarget.symm.trans htarget'
  cases hmk
  -- The far node is projected by the rest of the projection, and that is what it is loaded from.
  rw [Projection.far_of_isRelationship hshape] at hshaped
  obtain ⟨link, hread, _, far, hentries, hmirrors, hget, hfar⟩ :=
    @exists_readLink registry target rel _ node subject (fun _ => inverts_projection hnode) _ _ _
      hshaped
  cases hentries
  obtain ⟨farEntries, hgetFar, hidentity⟩ := hprojects.far
  cases hget.symm.trans hgetFar
  have hopposite : link.other.identity = opposite := hfar.identity_eq hidentity
  refine ⟨link, hread, hmirrors.identity.unique hprojects.identity,
    hmirrors.type.unique hprojects.type, hopposite, rfl, ?_⟩
  rw [hmirrors.ends, hopposite]
  exact inferred_ends_iff hleads

/-- Researchers work with each other, whoever asked whom. -/
def collaboration : Relationship where
  name := "partners"
  shape := .relationships
  type := "WORKS_WITH"
  direction := .both
  target := .model "Researcher"
  eager := true

/-- Researchers are known by their initials. -/
def researcher : EntityType where
  name := "Researcher"
  labels := ["Researcher"]
  properties := [Property.asPrimary { name := "initials", type := .string }]
  relationships := [collaboration]
  labels_ne_nil := by decide
  labels_ascending := by decide
  properties_nodup := by decide
  relationships_nodup := by decide
  keys_disjoint := by decide
  primary_le_one := by decide

/-- The registry of researchers. -/
def institute : Registry := ⟨[researcher], by decide⟩

/-- Bob asked Ann. -/
def bobWithAnn : StoredRelationship where
  identity := 50
  type := "WORKS_WITH"
  startNode := 2
  endNode := 1
  properties := []

/-- The relationship as it is found from the other researcher. -/
def projectedWith (identity : Identity) (initials : String) : Bag :=
  [(identityKey, .int 50), (typeKey, .string "WORKS_WITH"),
    ("node", .map [(identityKey, .int identity), (labelsKey, .list [.string "Researcher"]),
      ("initials", .string initials)])]

/-- The path to the researchers that one works with. -/
def partnersPath : Path :=
  Projection.path "this" "this_partners_rel" "this_partners_node" collaboration ["Researcher"]

/-- What is projected along the path. -/
def partnersProjection : Projection :=
  .relationship "this_partners_rel" [] "node" (.node "this_partners_node" (some ["initials"]) [])

/-- Found from Bob, the relationship is loaded as it is stored. -/
theorem bobWithAnn_from_start :
    ∃ link, readLink (Hydration.node institute 0 true (some researcher)) collaboration 2
        (.map (projectedWith 1 "AB")) = .ok link ∧
      link.ends = (2, 1) := by
  have hfield : Projection.eagerField institute (Projection.ofModel institute 0) "this" researcher
      collaboration = .ok (.mk "partners" partnersPath false partnersProjection) := rfl
  have hleads : partnersPath.LeadsOver bobWithAnn 2 1 := .mk ⟨.inr (by decide), rfl, .inl rfl⟩
  have hshaped : partnersProjection.Shaped institute (.map (projectedWith 1 "AB")) :=
    ⟨_, _, rfl, ⟨⟨50, rfl⟩, ⟨"WORKS_WITH", rfl⟩, by decide⟩, rfl, _, rfl,
      ⟨⟨1, rfl⟩, ["Researcher"], rfl, show HasKeys _ ["initials"] by decide⟩, trivial⟩
  obtain ⟨link, hread, -, -, -, -, hends⟩ := readLink_ends_iff (by decide) rfl hfield hleads
    hshaped ⟨rfl, rfl, _, rfl, rfl⟩
  exact ⟨link, hread, hends.mpr fun _ => rfl⟩

/-- Found from Ann along the same path, it is loaded the other way round. -/
theorem bobWithAnn_from_end :
    partnersPath.LeadsOver bobWithAnn 1 2 ∧
    ∃ link, readLink (Hydration.node institute 0 true (some researcher)) collaboration 1
        (.map (projectedWith 2 "BC")) = .ok link ∧
      link.identity = bobWithAnn.identity ∧ link.ends = (1, 2) ∧
      (NodeLink.ofStored collaboration bobWithAnn link.other).ends = (2, 1) :=
  ⟨.mk ⟨.inr (by decide), rfl, .inr rfl⟩, _, rfl, rfl, rfl, rfl⟩

end GraphMapper
