import GraphMapper.Schema.EntityType

/-!
# The registry

The registered entity types in the order of their registration, each under a name of its own. A type
is looked up by its name or by the labels of a node, and the far end of a relationship by its
target.
-/

namespace GraphMapper

/-- The registered entity types. -/
structure Registry where
  models : List EntityType
  names_nodup : (models.map EntityType.name).Nodup

namespace Registry

/-- The registry with no types. -/
def empty : Registry := ⟨[], by simp⟩

/-- The type of that name, if there is one. -/
def find? (registry : Registry) (name : String) : Option EntityType :=
  NamedList.find? EntityType.name registry.models name

/-- The type of that name. -/
def model (registry : Registry) (name : String) : Except SchemaError EntityType :=
  match registry.find? name with
  | some model => .ok model
  | none => .error (.unknownModel name)

/-- Adds a type, whose name must be new. -/
def register (registry : Registry) (model : EntityType) : Except SchemaError Registry :=
  if h : model.name ∈ registry.models.map EntityType.name then .error (.duplicateModel model.name)
  else .ok {
    models := registry.models ++ [model]
    names_nodup := by
      rw [List.map_append]
      refine List.nodup_append.mpr ⟨registry.names_nodup, by simp, ?_⟩
      intro a ha b hb hab
      rw [List.map_singleton, List.mem_singleton] at hb
      exact h (hb ▸ hab ▸ ha) }

/-- Adds a type that has the declarations of `parent`, one more label, and the given additions. -/
def extend (registry : Registry) (parent name label : String)
    (additions : EntityDraft → EntityDraft) : Except SchemaError Registry := do
  let parent ← registry.model parent
  let model ← (additions (parent.extend name label)).build
  registry.register model

/-- The first type with exactly these labels, whatever their order. -/
def byLabels? (registry : Registry) (labels : List String) : Option EntityType :=
  registry.models.find? fun model => model.hasLabels labels

/-- The type at the far end of a relationship; there is none for one that goes to any node. -/
def target (registry : Registry) (rel : Relationship) : Except SchemaError (Option EntityType) :=
  match rel.target with
  | .model name => (registry.model name).map some
  | .any => .ok none

/-- The registered type at the far end of a relationship, if it names one. -/
def target? (registry : Registry) (rel : Relationship) : Option EntityType :=
  rel.target.name?.bind registry.find?

/-- The empty registry finds nothing. -/
theorem find?_empty (name : String) : empty.find? name = none := rfl

end Registry

end GraphMapper
