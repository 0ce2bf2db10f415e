import GraphMapper.Proofs.Cypher.Scope
import GraphMapper.Proofs.Projection

/-!
# Projections are well scoped

In a pattern comprehension the path begins at a variable that is visible already, and what else it
has variables for is introduced by it, unless such a variable is visible too: then the path would
compare with that instead. What is projected behind the path should read what the path found, and
nothing else.

`Projection.WellScoped` says so of every field of a projection, under the variables that are visible
there, and `Projection.reads` are the variables that a projection takes from outside. Variables are
made of that of the root and of the names of relationships, and grow from level to level, so that
their lengths alone tell that they are fresh (`Cypher.length_nestedVar`).
-/

namespace GraphMapper

namespace Cypher

/-- The variable that a path begins at. -/
def Path.origin? (path : Path) : Option String :=
  path.elements.head?.bind PathElement.var?

/-- The variables behind the beginning of a path, which a comprehension introduces. -/
def Path.found (path : Path) : List String :=
  path.elements.tail.filterMap PathElement.var?

/-- A path goes from the node `owner` along one relationship to its far node, and has plain variables
for both that differ from each other and from all that is visible. -/
structure Path.Introduces (visible : List String) (owner : String) (path : Path) : Prop where
  shape : ∃ near rel far, path.elements = [.node near, .relationship rel, .node far] ∧
    near.var = some owner ∧ rel.var.isSome ∧ far.var.isSome
  plain : ∀ var ∈ path.found, isIdentifier var.toList
  nodup : path.found.Nodup
  fresh : ∀ var ∈ path.found, var ∉ visible

end Cypher

open Cypher

mutual

/-- The variables that a projection reads and does not introduce itself. -/
def Projection.reads : Projection → List String
  | .node var _ fields => var :: fieldsRead fields
  | .relationship var _ _ far => var :: far.reads

/-- The variables that fields read and do not introduce themselves. -/
def fieldsRead : List EagerField → List String
  | [] => []
  | .mk _ path _ projection :: rest =>
    path.origin?.toList ++ projection.reads.filter (· ∉ path.found) ++ fieldsRead rest

end

mutual

/-- Every field of a projection, where some variables are visible, begins at the node that has it,
introduces fresh variables for the relationship and for its far node, and projects what it
introduces alone, well scoped where that is visible as well. -/
def Projection.WellScoped (visible : List String) : Projection → Prop
  | .node var _ fields => FieldsScoped visible var fields
  | .relationship _ _ _ far => far.WellScoped visible

/-- The fields of the node with the variable `owner` are well scoped. -/
def FieldsScoped (visible : List String) (owner : String) : List EagerField → Prop
  | [] => True
  | .mk _ path _ projection :: rest =>
    path.Introduces visible owner ∧ projection.reads ⊆ path.found ∧
      projection.WellScoped (visible ++ path.found) ∧ FieldsScoped visible owner rest

end

variable {registry : Registry} {levels : Nat} {var : String} {visible : List String}
  {rel : Relationship} {projection : Projection} {field : EagerField}

/-- Where no visible variable is longer than that of the entity, the path along a relationship
introduces the variables of its two sides. -/
theorem path_introduces (hvar : isIdentifier var.toList)
    (hshort : ∀ name ∈ visible, name.length ≤ var.length) (rel : Relationship)
    (labels : List String) :
    (Projection.path var (nestedVar var rel.name .relationship) (nestedVar var rel.name .node) rel
      labels).Introduces visible var := by
  obtain ⟨hlink, hfar⟩ := length_nestedVar var rel.name
  have hfound : ∀ name ∈ [nestedVar var rel.name .relationship, nestedVar var rel.name .node],
      isIdentifier name.toList ∧ var.length < name.length := by
    intro name hname
    rcases List.mem_pair.mp hname with rfl | rfl
    · exact ⟨isIdentifier_nestedVar hvar rel.name .relationship, hlink⟩
    · exact ⟨isIdentifier_nestedVar hvar rel.name .node, by omega⟩
  constructor
  case shape => exact ⟨_, _, _, rfl, rfl, rfl, rfl⟩
  case plain => exact fun name hname => (hfound name hname).1
  case nodup =>
    refine List.pairwise_pair.mpr fun heq => ?_
    rw [heq] at hfar
    exact Nat.lt_irrefl _ hfar
  case fresh =>
    intro name hname hvisible
    have hlonger := (hfound name hname).2
    have hle := hshort name hvisible
    omega

/-- Projections of so many levels are well scoped where no visible variable is longer than their
own, and read no other than that. -/
def ScopedProjections (registry : Registry) (levels : Nat) : Prop :=
  ∀ {var : String} {model : Option EntityType} {projection : Projection} {visible : List String},
    Projection.ofModel registry levels var model = .ok projection → isIdentifier var.toList →
    (∀ name ∈ visible, name.length ≤ var.length) →
    projection.reads ⊆ [var] ∧ projection.WellScoped visible

/-- Behind a relationship stands what reads the variables of its two sides alone, and is well scoped
if the node is. -/
theorem far_scoped {node : Projection} {relVar nodeVar : String} (hreads : node.reads ⊆ [nodeVar])
    (hscoped : node.WellScoped visible) :
    (Projection.far rel relVar node).reads ⊆ [relVar, nodeVar] ∧
      (Projection.far rel relVar node).WellScoped visible := by
  have hnode : node.reads ⊆ [relVar, nodeVar] :=
    List.Subset.trans hreads (List.subset_cons_self relVar [nodeVar])
  cases hheld : rel.shape.isRelationship with
  | true =>
    rw [Projection.far_of_isRelationship hheld]
    exact ⟨List.cons_subset.mpr ⟨List.mem_cons_self, hnode⟩, hscoped⟩
  | false =>
    rw [Projection.far_of_not_isRelationship hheld]
    exact ⟨hnode, hscoped⟩

/-- The fields of a node read its variable alone, and are well scoped. -/
theorem fields_scoped (ih : ScopedProjections registry levels) {model : EntityType}
    {rels : List Relationship} {fields : List EagerField}
    (h : List.Forall₂ (fun rel field => Projection.eagerField registry
      (Projection.ofModel registry levels) var model rel = .ok field) rels fields)
    (hvar : isIdentifier var.toList) (hshort : ∀ name ∈ visible, name.length ≤ var.length) :
    fieldsRead fields ⊆ [var] ∧ FieldsScoped visible var fields := by
  induction h with
  | nil => exact ⟨List.nil_subset _, trivial⟩
  | @cons rel field rels fields hfield _ ihfields =>
    obtain ⟨target, node, -, hnode, rfl⟩ := Projection.eagerField_eq_ok.mp hfield
    obtain ⟨hrest, hscoped⟩ := ihfields
    obtain ⟨hlink, hfar⟩ := length_nestedVar var rel.name
    -- Behind the path its two variables are visible too, of which that of the node is the longest.
    have hvisible : ∀ name ∈ visible ++
        [nestedVar var rel.name .relationship, nestedVar var rel.name .node],
        name.length ≤ (nestedVar var rel.name .node).length := by
      intro name hname
      rcases List.mem_append.mp hname with hname | hname
      · have hle := hshort name hname
        omega
      · rcases List.mem_pair.mp hname with rfl | rfl <;> omega
    obtain ⟨hnodeReads, hnodeScoped⟩ :=
      ih hnode (isIdentifier_nestedVar hvar rel.name .node) hvisible
    obtain ⟨hreads, hfarScoped⟩ := @far_scoped _ rel node (nestedVar var rel.name .relationship) _
      hnodeReads hnodeScoped
    refine ⟨?_, path_introduces hvar hshort rel _, hreads, hfarScoped, hscoped⟩
    refine List.append_subset.mpr ⟨List.append_subset.mpr ⟨List.Subset.refl [var], ?_⟩, hrest⟩
    intro name hname
    obtain ⟨hname, hnot⟩ := List.mem_filter.mp hname
    exact absurd (hreads hname) (of_decide_eq_true hnot)

/-- Every projection is well scoped where no visible variable is longer than its own. -/
theorem projection_scoped : ScopedProjections registry levels := by
  -- Far nodes are projected for one level less, where the variables of the path are visible too.
  induction levels with
  | zero =>
    intro var model projection visible h hvar hshort
    cases model <;> cases h <;> exact ⟨List.Subset.refl _, trivial⟩
  | succ levels ih =>
    intro var model projection visible h hvar hshort
    cases model with
    | none =>
      cases h
      exact ⟨List.Subset.refl _, trivial⟩
    | some model =>
      obtain ⟨fields, hfields, rfl⟩ := Projection.ofModel_succ_eq_ok.mp h
      obtain ⟨hreads, hscoped⟩ := fields_scoped ih hfields hvar hshort
      exact ⟨List.cons_subset.mpr ⟨List.mem_cons_self, hreads⟩, hscoped⟩

/-- Whatever the names of relationships are, a projection under a plain variable reads that variable
alone, and is well scoped where it is visible: every field begins at the variable of the node that
has it, introduces plain variables that are new among those of the root and of all fields around it,
and projects what it introduces alone. -/
theorem projection_wellScoped {limit depth : Nat} {model : Option EntityType}
    (h : Projection.ofModel registry (Projection.levels limit depth) var model = .ok projection)
    (hvar : isIdentifier var.toList) :
    projection.reads ⊆ [var] ∧ projection.WellScoped [var] :=
  projection_scoped h hvar fun _ hname =>
    Nat.le_of_eq (congrArg String.length (List.mem_singleton.mp hname))

/-- Pen friends write to each other. The variables of the second relationship are those of the first
one of a friend of the first kind, but no field stands within the other. -/
def penFriend : EntityType where
  name := "PenFriend"
  labels := ["PenFriend"]
  properties := [{ name := "first name", type := .string }]
  relationships := [
    { name := "old friends", shape := .relationships, type := "WRITES_TO", direction := .both,
      target := .model "PenFriend", eager := true,
      properties := [{ name := "since", type := .integer }] },
    { name := "old friends node old friends", shape := .node, type := "HEARD_OF",
      direction := .outgoing, target := .model "PenFriend", eager := true }]
  labels_ne_nil := by decide
  labels_ascending := by decide
  properties_nodup := by decide
  relationships_nodup := by decide
  keys_disjoint := by decide
  primary_le_one := by decide

/-- The registry of pen friends. -/
def penFriends : Registry := ⟨[penFriend], by decide⟩

/-- The projection of a pen friend, two levels of friends deep, is well scoped. -/
theorem penFriend_wellScoped :
    ∃ projection, Projection.ofModel penFriends (Projection.levels 2 1) "this" (some penFriend) =
        .ok projection ∧
      projection.depth = 3 ∧ isIdentifier "this".toList ∧ projection.reads ⊆ ["this"] ∧
      projection.WellScoped ["this"] := by
  have hprojection : ∃ projection, Projection.ofModel penFriends (Projection.levels 2 1) "this"
      (some penFriend) = .ok projection ∧ projection.depth = 3 := ⟨_, rfl, rfl⟩
  obtain ⟨projection, hprojection, hdepth⟩ := hprojection
  have hthis : isIdentifier "this".toList := by decide
  exact ⟨projection, hprojection, hdepth, hthis, projection_wellScoped hprojection hthis⟩

end GraphMapper
