import GraphMapper.Projection
import GraphMapper.Proofs.Attempt

/-!
# The values that a projection returns

A projection is sent to the database, which returns values of its shape: a map with the markers of
the entity, every projected property, null where the entity has none, and for every eager field what
was found along its path. `Projection.Shaped` says this of the compiled projection alone, so that
nothing of how it is read enters.

`ofModel_succ_eq_ok` and `eagerField_eq_ok` say what the projection of a type is made of.
-/

namespace GraphMapper

/-- The name of the field. -/
def EagerField.name : EagerField → String
  | .mk name _ _ _ => name

/-- The identity of an entity is under its marker. -/
def HasIdentity (entries : Bag) (identity : Identity) : Prop :=
  KeyedList.get? entries identityKey = some (.int identity)

/-- The labels of a node are under their marker. -/
def HasLabels (entries : Bag) (labels : List String) : Prop :=
  KeyedList.get? entries labelsKey = some (.list (labels.map .string))

/-- The type of a relationship is under its marker. -/
def HasType (entries : Bag) (type : String) : Prop :=
  KeyedList.get? entries typeKey = some (.string type)

/-- Each of the names is a key. -/
def HasKeys (entries : Bag) (names : List String) : Prop :=
  ∀ name ∈ names, KeyedList.has entries name

instance (entries : Bag) (names : List String) : Decidable (HasKeys entries names) :=
  inferInstanceAs (Decidable (∀ name ∈ names, KeyedList.has entries name))

/-- No property and no relationship of a type has the key of a marker. -/
def EntityType.SparesMarkers (model : EntityType) : Prop :=
  ∀ key ∈ [identityKey, labelsKey], key ∉ model.properties.map Property.name ∧
    key ∉ model.relationships.map Relationship.name

instance (model : EntityType) : Decidable model.SparesMarkers :=
  inferInstanceAs (Decidable (∀ key ∈ [identityKey, labelsKey],
    key ∉ model.properties.map Property.name ∧ key ∉ model.relationships.map Relationship.name))

/-- What the markers and properties of a projected node are: a node of unknown type has the labels
of some registered type, and any properties. -/
def NodeShaped (registry : Registry) (properties : Option (List String)) (entries : Bag) : Prop :=
  (∃ identity, HasIdentity entries identity) ∧
    ∃ labels, HasLabels entries labels ∧
      match properties with
      | some names => HasKeys entries names
      | none => (registry.byLabels? labels).isSome

/-- What the markers and properties of a projected relationship are. -/
def LinkShaped (properties : List String) (entries : Bag) : Prop :=
  (∃ identity, HasIdentity entries identity) ∧ (∃ type, HasType entries type) ∧
    HasKeys entries properties

/-- What is found along the path of a field: one value of its projection or none for a single field,
and a list of them for any other. -/
def FoundShaped (shaped : Value → Prop) (single : Bool) (value : Value) : Prop :=
  if single then value = .null ∨ shaped value
  else ∃ items, value = .list items ∧ ∀ item ∈ items, shaped item

mutual

/-- A value has the shape of a projection. -/
def Projection.Shaped (registry : Registry) : Projection → Value → Prop
  | .node _ properties fields, value =>
    ∃ entries, value = .map entries ∧ NodeShaped registry properties entries ∧
      FieldsShaped registry fields entries
  | .relationship _ properties nodeKey far, value =>
    ∃ entries node, value = .map entries ∧ LinkShaped properties entries ∧
      KeyedList.get? entries nodeKey = some node ∧ far.Shaped registry node

/-- What is under the name of a field has the shape of the field. -/
def EagerField.Shaped (registry : Registry) : EagerField → Bag → Prop
  | .mk name _ single projection, entries =>
    ∃ value, KeyedList.get? entries name = some value ∧
      FoundShaped (projection.Shaped registry) single value

/-- What is under the names of fields has the shapes of the fields. -/
def FieldsShaped (registry : Registry) : List EagerField → Bag → Prop
  | [], _ => True
  | field :: rest, entries => field.Shaped registry entries ∧ FieldsShaped registry rest entries

end

variable {registry : Registry} {levels : Nat} {var : String} {model : EntityType}
  {rel : Relationship} {projection : Projection} {field : EagerField} {entries : Bag}

/-- A single value has the shape of what is found if it is null or has that of the projection. -/
theorem foundShaped_true {shaped : Value → Prop} {value : Value} :
    FoundShaped shaped true value ↔ value = .null ∨ shaped value := by
  simp [FoundShaped]

/-- Several values have the shape of what is found if each has that of the projection. -/
theorem foundShaped_false {shaped : Value → Prop} {value : Value} :
    FoundShaped shaped false value ↔
      ∃ items, value = .list items ∧ ∀ item ∈ items, shaped item := by
  simp [FoundShaped]

namespace Projection

/-- Behind a relationship that is held itself stands its own projection. -/
theorem far_of_isRelationship (h : rel.shape.isRelationship = true) (relVar : String)
    (node : Projection) :
    far rel relVar node =
      .relationship relVar (rel.properties.map Property.name) rel.nodeKey node := by
  simp [far, h]

/-- Behind any other relationship stands the node. -/
theorem far_of_not_isRelationship (h : rel.shape.isRelationship = false) (relVar : String)
    (node : Projection) : far rel relVar node = node := by
  simp [far, h]

/-- Above the last level a projection has the fields of the eager relationships. -/
theorem ofModel_succ_eq_ok :
    ofModel registry (levels + 1) var (some model) = .ok projection ↔
      ∃ fields, List.Forall₂
        (fun rel field => eagerField registry (ofModel registry levels) var model rel = .ok field)
        model.eager fields ∧
        projection = .node var (some (model.visible.map Property.name)) fields := by
  simp only [ofModel, bind_eq_ok, mapM_eq_ok]
  constructor
  · rintro ⟨fields, hfields, h⟩
    cases h
    exact ⟨fields, hfields, rfl⟩
  · rintro ⟨fields, hfields, rfl⟩
    exact ⟨fields, hfields, rfl⟩

/-- The field of a relationship has a projection of the far node, whose target is known. -/
theorem eagerField_eq_ok :
    eagerField registry (ofModel registry levels) var model rel = .ok field ↔
      ∃ target node, registry.target rel = .ok target ∧
        ofModel registry levels (Cypher.nestedVar var rel.name .node) target = .ok node ∧
        field = .mk rel.name
          (path var (Cypher.nestedVar var rel.name .relationship)
            (Cypher.nestedVar var rel.name .node) rel ((target.map EntityType.labels).getD []))
          (!rel.shape.isCollection)
          (far rel (Cypher.nestedVar var rel.name .relationship) node) := by
  unfold eagerField
  cases htarget : registry.target rel with
  | error e => simp
  | ok target =>
    simp only [bind_eq_ok]
    constructor
    · rintro ⟨node, hnode, h⟩
      cases h
      exact ⟨target, node, rfl, hnode, rfl⟩
    · rintro ⟨target, node, htarget', hnode, rfl⟩
      cases htarget'
      exact ⟨node, hnode, rfl⟩

end Projection

end GraphMapper
