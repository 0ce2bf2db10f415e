import GraphMapper.NamedList
import GraphMapper.Schema.Property

/-!
# Relationship declarations

A relationship of an entity type has a key on the entity, a type in the database, a direction and a
target. Its shape says what the key holds: one node or several, or one relationship or several, each
together with its properties and the node at its far end.
-/

namespace GraphMapper

/-- What the key of a relationship holds. -/
inductive Shape where
  | node
  | nodes
  | relationship
  | relationships
  deriving DecidableEq

namespace Shape

/-- Whether the key holds a list. -/
def isCollection : Shape → Bool
  | .nodes | .relationships => true
  | _ => false

/-- Whether the relationship itself is held, with its identity and its properties. -/
def isRelationship : Shape → Bool
  | .relationship | .relationships => true
  | _ => false

/-- The shape as documents spell it. -/
def name : Shape → String
  | .node => "node"
  | .nodes => "nodes"
  | .relationship => "relationship"
  | .relationships => "relationships"

/-- Reads a shape. -/
def ofName? : String → Option Shape
  | "node" => some .node
  | "nodes" => some .nodes
  | "relationship" => some .relationship
  | "relationships" => some .relationships
  | _ => none

end Shape

/-- Which way a relationship points, as seen from the entity that declares it. -/
inductive Direction where
  | incoming
  | outgoing
  | both
  deriving DecidableEq

namespace Direction

/-- The direction as documents spell it. -/
def name : Direction → String
  | .incoming => "in"
  | .outgoing => "out"
  | .both => "both"

/-- Reads a direction. -/
def ofName? : String → Option Direction
  | "in" => some .incoming
  | "out" => some .outgoing
  | "both" => some .both
  | _ => none

/-- The direction a relationship is written in, which has to be one of the two. -/
def forWriting : Direction → Direction
  | .incoming => .incoming
  | .outgoing | .both => .outgoing

end Direction

/-- What becomes of the far end when its owner is deleted. -/
inductive Cascade where
  | keep
  | detach
  | delete
  deriving DecidableEq

namespace Cascade

/-- The cascade as documents spell it. -/
def name : Cascade → String
  | .keep => "none"
  | .detach => "detach"
  | .delete => "delete"

/-- Reads a cascade. -/
def ofName? : String → Option Cascade
  | "none" => some .keep
  | "detach" => some .detach
  | "delete" => some .delete
  | _ => none

end Cascade

/-- The entity type at the far end: one by its name, or any. -/
inductive Target where
  | model (name : String)
  | any
  deriving DecidableEq

/-- The name of the model at the far end. -/
def Target.name? : Target → Option String
  | .model name => some name
  | .any => none

/-- The declaration of a relationship. -/
structure Relationship where
  name : String
  shape : Shape
  type : String
  direction : Direction
  target : Target
  eager : Bool := false
  cascade : Cascade := .keep
  /-- The key of the far node beside the properties of the relationship. -/
  nodeKey : String := "node"
  properties : List Property := []

/-- The first declared property of that name. -/
def Relationship.property? (rel : Relationship) (name : String) : Option Property :=
  NamedList.find? Property.name rel.properties name

end GraphMapper
