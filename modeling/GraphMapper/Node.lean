import GraphMapper.Schema.EntityType

/-!
# Loaded nodes

A node as it was loaded from the database: what it is, its declared properties, and the far ends of
its eager relationships. A loaded relationship owns the node at its far end and knows its own two
ends by their identities.
-/

namespace GraphMapper

mutual

/-- A node with its properties and its eager fields. -/
inductive Node where
  | mk (identity : Identity) (labels : List String) (model : EntityType) (properties : Bag)
      (fields : List (String × NodeField))

/-- What was loaded along one declared relationship. -/
inductive NodeField where
  | node (value : Option Node)
  | nodes (items : List Node)
  | relationship (value : Option NodeLink)
  | relationships (items : List NodeLink)

/-- A relationship with its properties and the node at its far end. -/
inductive NodeLink where
  | mk (identity : Identity) (type name nodeKey : String) (properties : Bag)
      (startNode endNode : Identity) (other : Node)

end

namespace Node

/-- The identity of the node. -/
def identity : Node → Identity
  | .mk identity _ _ _ _ => identity

/-- The labels of the node. -/
def labels : Node → List String
  | .mk _ labels _ _ _ => labels

/-- The type of the node. -/
def model : Node → EntityType
  | .mk _ _ model _ _ => model

/-- The declared properties that the result showed. -/
def properties : Node → Bag
  | .mk _ _ _ properties _ => properties

/-- The eager fields by name. -/
def fields : Node → List (String × NodeField)
  | .mk _ _ _ _ fields => fields

/-- The node as a value, by which a write refers to it. -/
def reference (node : Node) : Value :=
  .node node.identity node.labels node.properties

/-- An object of the given entries, of which a later one replaces an earlier one. -/
def jsonObject (entries : List (String × Json)) : Json :=
  .object (KeyedList.ofPairs entries)

mutual

/-- Identity, labels, properties and eager fields in JSON. -/
def json : Node → Json
  | .mk identity labels _ properties fields =>
    jsonObject ([("_id", .integer identity.toInt), ("_labels", .array (labels.map .string))]
      ++ Value.jsonEntries properties ++ fieldsJson fields)

/-- The eager fields in JSON. -/
def fieldsJson : List (String × NodeField) → List (String × Json)
  | [] => []
  | (name, field) :: rest => (name, fieldJson field) :: fieldsJson rest

/-- One eager field in JSON. -/
def fieldJson : NodeField → Json
  | .node none => .null
  | .node (some node) => node.json
  | .nodes items => .array (nodesJson items)
  | .relationship none => .null
  | .relationship (some link) => linkJson link
  | .relationships items => .array (linksJson items)

/-- Nodes in JSON. -/
def nodesJson : List Node → List Json
  | [] => []
  | node :: rest => node.json :: nodesJson rest

/-- Identity, type, properties and far node of a relationship in JSON. -/
def linkJson : NodeLink → Json
  | .mk identity type _ nodeKey properties _ _ other =>
    jsonObject ([("_id", .integer identity.toInt), ("_type", .string type)]
      ++ Value.jsonEntries properties ++ [(nodeKey, other.json)])

/-- Relationships in JSON. -/
def linksJson : List NodeLink → List Json
  | [] => []
  | link :: rest => linkJson link :: linksJson rest

end

end Node

/-- The relationship in JSON. -/
def NodeLink.json (link : NodeLink) : Json := Node.linkJson link

/-- The node at the far end of a relationship. -/
def NodeLink.other : NodeLink → Node
  | .mk _ _ _ _ _ _ _ other => other

end GraphMapper
