import GraphMapper.Json.Document
import GraphMapper.Json.Record
import GraphMapper.Schema.Registry

/-!
# Schema documents

A schema document is an object of models by name; a model is an object of declarations by key, next
to its `labels`. A declaration is the name of a type, or a record of fields; where its type is the
name of a shape it declares a relationship, and otherwise a property. The properties of a
relationship are declared in the same form.

A name or key that is repeated keeps its first place and takes its last declaration.
-/

namespace GraphMapper

/-- The fields of a declaration as they are written. -/
structure Declaration where
  type : String := ""
  primary : Bool := false
  required : Bool := false
  unique : Bool := false
  indexed : Bool := false
  hidden : Bool := false
  readonly : Bool := false
  createOnly : Bool := false
  defaultValue : Option Json := none
  relationship : Option String := none
  direction : Option Direction := none
  target : Option String := none
  eager : Bool := false
  cascade : Option Cascade := none
  nodeKey : Option String := none

/-- A declaration with those of its relationship's properties. -/
structure EntryDeclaration where
  declaration : Declaration
  properties : List (String × Declaration) := []

/-- A model as it is written. -/
structure ModelDocument where
  labels : List String
  entries : List (String × EntryDeclaration)

/-- A schema as it is written. -/
structure SchemaDocument where
  models : List (String × ModelDocument)

namespace Declaration

/-- The names of the fields, in the order of their positions. -/
def fieldNames : List String :=
  ["type", "primary", "required", "unique", "index", "hidden", "readonly", "protected", "default",
    "relationship", "direction", "target", "eager", "cascade", "alias", "properties"]

/-- The default in a slot; null stands for none. -/
def default? : Option Json → Option Json
  | some .null => none
  | slot => slot

/-- Reads the fields of a declaration from their slots, `properties` apart. -/
def ofSlots? : List (Option Json) → Option Declaration
  | [type, primary, required, unique, index, hidden, readonly, createOnly, default, relationship,
      direction, target, eager, cascade, nodeKey, _] => do
    return {
      type := ← Json.field? Json.string? "" type
      primary := ← Json.field? Json.bool? false primary
      required := ← Json.field? Json.bool? false required
      unique := ← Json.field? Json.bool? false unique
      indexed := ← Json.field? Json.bool? false index
      hidden := ← Json.field? Json.bool? false hidden
      readonly := ← Json.field? Json.bool? false readonly
      createOnly := ← Json.field? Json.bool? false createOnly
      defaultValue := default? default
      relationship := ← Json.field? (Json.nullable? Json.string?) none relationship
      direction := ← Json.field? (Json.nullable? (Json.choice? Direction.ofName?)) none direction
      target := ← Json.field? (Json.nullable? Json.string?) none target
      eager := ← Json.field? Json.bool? false eager
      cascade := ← Json.field? (Json.nullable? (Json.choice? Cascade.ofName?)) none cascade
      nodeKey := ← Json.field? (Json.nullable? Json.string?) none nodeKey }
  | _ => none

end Declaration

/-- Entries of which each key keeps its first place and its last value. -/
def lastEntries {α : Type} (entries : List (String × α)) : List (String × α) :=
  entries.foldl (fun kept entry => NamedList.put Prod.fst entry kept) []

namespace EntryDeclaration

mutual

/-- Reads a declaration: the name of a type, or its fields by name or by position. -/
def ofJson? : Json → Option EntryDeclaration
  | .string type => some { declaration := { type := type } }
  | .object entries => do
    let declaration ← Declaration.ofSlots? (← Json.slotsByName? Declaration.fieldNames entries)
    return ⟨declaration, ← propertiesByName? entries⟩
  | .array items => do
    let declaration ← Declaration.ofSlots? (← Json.slotsByPosition? Declaration.fieldNames items)
    return ⟨declaration, ← propertiesByPosition? 15 items⟩
  | _ => none

/-- Reads the field `properties` among the entries of a declaration. -/
def propertiesByName? : List (String × Json) → Option (List (String × Declaration))
  | [] => some []
  | (name, value) :: rest =>
    if name = "properties" then properties? value else propertiesByName? rest

/-- Reads the field `properties` among the items of a declaration, so many items further on. -/
def propertiesByPosition? : Nat → List Json → Option (List (String × Declaration))
  | _, [] => some []
  | 0, item :: _ => properties? item
  | n + 1, _ :: rest => propertiesByPosition? n rest

/-- Reads the declarations of a relationship's properties. -/
def properties? : Json → Option (List (String × Declaration))
  | .object entries => (propertyEntries? entries).map lastEntries
  | _ => none

/-- Reads declarations by key. -/
def propertyEntries? : List (String × Json) → Option (List (String × Declaration))
  | [] => some []
  | (name, value) :: rest => do
    let entry ← ofJson? value
    return (name, entry.declaration) :: (← propertyEntries? rest)

end

end EntryDeclaration

/-- Reads a model. Its labels are given once if at all. -/
def ModelDocument.ofJson? : Json → Option ModelDocument
  | .object entries => do
    let labels ← match entries.filter fun entry => entry.1 = "labels" with
      | [] => some []
      | [entry] => Json.list? Json.string? entry.2
      | _ => none
    let declared ← (entries.filter fun entry => entry.1 ≠ "labels").mapM fun entry =>
      (EntryDeclaration.ofJson? entry.2).map fun declaration => (entry.1, declaration)
    return ⟨labels, lastEntries declared⟩
  | _ => none

/-- Reads a schema. -/
def SchemaDocument.ofJson? : Json → Option SchemaDocument
  | .object entries => do
    let models ← entries.mapM fun entry =>
      (ModelDocument.ofJson? entry.2).map fun model => (entry.1, model)
    return ⟨lastEntries models⟩
  | _ => none

/-- Reads a model from a text. -/
def ModelDocument.ofText (text : String) : Except SchemaError ModelDocument :=
  match (Json.ofText? text).bind ofJson? with
  | some model => .ok model
  | none => .error .malformed

/-- Reads a schema from a text. -/
def SchemaDocument.ofText (text : String) : Except SchemaError SchemaDocument :=
  match (Json.ofText? text).bind ofJson? with
  | some schema => .ok schema
  | none => .error .malformed

namespace Declaration

/-- The property that a declaration declares under a key. -/
def toProperty (declaration : Declaration) (model key : String) : Except SchemaError Property :=
  match PropertyType.ofText? declaration.type with
  | none => .error (.invalidDefinition model key ("unknown type " ++ Text.quoted declaration.type))
  | some type =>
    let p : Property := { name := key, type := type }
    let p := if declaration.primary then p.asPrimary else p
    .ok { p with
      required := declaration.required
      unique := p.unique || declaration.unique
      indexed := declaration.indexed
      hidden := declaration.hidden
      readonly := declaration.readonly
      createOnly := p.createOnly || declaration.createOnly
      defaultValue := declaration.defaultValue.map fun json => .literal (Value.ofJson json) }

/-- The target that a declaration names; a star stands for any node. -/
def toTarget : Option String → Target
  | none => .any
  | some name => if name = "*" then .any else .model name

end Declaration

/-- The relationship that a declaration declares under a key. -/
def EntryDeclaration.toRelationship (entry : EntryDeclaration) (model key : String)
    (shape : Shape) : Except SchemaError Relationship :=
  match entry.declaration.relationship with
  | none => .error (.invalidDefinition model key "missing relationship type")
  | some type => do
    let properties ← entry.properties.mapM fun property => property.2.toProperty model property.1
    return {
      name := key
      shape := shape
      type := type
      direction := entry.declaration.direction.getD .outgoing
      target := Declaration.toTarget entry.declaration.target
      eager := entry.declaration.eager
      cascade := entry.declaration.cascade.getD .keep
      nodeKey := entry.declaration.nodeKey.getD "node"
      properties := properties }

/-- Adds what an entry declares to the draft of a type. -/
def EntryDeclaration.addTo (draft : EntityDraft) (key : String) (entry : EntryDeclaration) :
    Except SchemaError EntityDraft :=
  match Shape.ofName? entry.declaration.type with
  | some shape => (entry.toRelationship draft.name key shape).map draft.relationship
  | none => (entry.declaration.toProperty draft.name key).map draft.property

/-- Builds the type that a model describes. -/
def ModelDocument.toEntityType (document : ModelDocument) (name : String) :
    Except SchemaError EntityType := do
  let draft := document.labels.foldl EntityDraft.label { name := name }
  let draft ← document.entries.foldlM (fun draft entry => entry.2.addTo draft entry.1) draft
  draft.build

/-- Builds every model and registers it, in the order of the document. -/
def SchemaDocument.toRegistry (document : SchemaDocument) : Except SchemaError Registry :=
  document.models.foldlM
    (fun registry model => do registry.register (← model.2.toEntityType model.1)) Registry.empty

end GraphMapper
