import GraphMapper.Node
import GraphMapper.Projection
import GraphMapper.Row

/-!
# Hydration

The inverse of the eager projection: values of a result become loaded nodes. A node arrives as a
projected map with its identity and labels under the reserved keys, or as the database hands nodes
out. Eager fields are read from projected maps alone, and only on the levels that the projection
unfolds; a node that was reached through a relationship to any node was projected without them,
whatever type its labels have.
-/

namespace GraphMapper

/-- The causes for which a result is not understood. -/
inductive HydrationError where
  | missingColumn (name : String)
  | missingIdentity (context : String)
  | unknownLabels (labels : List String)
  | unresolvedTarget (model relationship target : String)
  | missingEagerField (model field : String)
  | unexpectedValue (context expected found : String)
  deriving DecidableEq

/-- The text of the error. -/
def HydrationError.message : HydrationError → String
  | .missingColumn name => "column " ++ Text.quoted name ++ " is not in the result"
  | .missingIdentity context => context ++ " has no identity marker"
  | .unknownLabels labels => "no registered model has labels " ++ Text.quotedList labels
  | .unresolvedTarget model relationship target =>
    "relationship " ++ Text.quoted relationship ++ " of " ++ model
      ++ " targets unregistered model " ++ Text.quoted target
  | .missingEagerField model field =>
    "eager field " ++ Text.quoted field ++ " missing from " ++ model ++ " result"
  | .unexpectedValue context expected found =>
    "expected " ++ expected ++ " for " ++ context ++ ", found " ++ found

namespace Hydration

/-- What a value says of a node. -/
structure Source where
  identity : Identity
  labels : List String
  model : EntityType
  entries : Bag
  /-- Whether the node was projected, and may have eager fields. -/
  projected : Bool

/-- The labels under their reserved key; what is no text is passed over. -/
def projectedLabels (entries : Bag) : List String :=
  match KeyedList.get? entries labelsKey with
  | some (.list items) => items.filterMap Value.string?
  | _ => []

/-- The identity under its reserved key. -/
def projectedIdentity (entries : Bag) (context : String) : Except HydrationError Identity :=
  match (KeyedList.get? entries identityKey).bind Value.identity? with
  | some identity => .ok identity
  | none => .error (.missingIdentity context)

/-- The type that is given, or else the one with the labels. -/
def modelOf (registry : Registry) (model : Option EntityType) (labels : List String) :
    Except HydrationError EntityType :=
  match model with
  | some model => .ok model
  | none =>
    match registry.byLabels? labels with
    | some model => .ok model
    | none => .error (.unknownLabels labels)

/-- Reads what a value says of a node that is a `model`, or of a node of unknown type. -/
def readSource (registry : Registry) (model : Option EntityType) (value : Value) :
    Except HydrationError Source := do
  let context := (model.map EntityType.name).getD "node"
  match value with
  | .map entries =>
    let identity ← projectedIdentity entries context
    let labels := projectedLabels entries
    return ⟨identity, labels, ← modelOf registry model labels, entries, true⟩
  | .node identity labels properties =>
    return ⟨identity, labels, ← modelOf registry model labels, properties, false⟩
  | other => throw (.unexpectedValue context "node" other.typeName)

/-- The entries under the names of declared properties that are not hidden. -/
def shown (properties : List Property) (entries : Bag) : Bag :=
  KeyedList.ofPairs ((properties.filter fun p => !p.hidden).filterMap fun p =>
    (KeyedList.get? entries p.name).map fun value => (p.name, value))

/-- The node that a source describes, with the given eager fields. -/
def Source.node (source : Source) (fields : List (String × NodeField)) : Node :=
  .mk source.identity source.labels source.model (shown source.model.properties source.entries)
    (KeyedList.ofPairs fields)

/-- The items of a list. -/
def listItems (context : String) : Value → Except HydrationError (List Value)
  | .list items => .ok items
  | other => .error (.unexpectedValue context "list" other.typeName)

/-- A relationship that was projected from the node with the identity `subject`, with its far end as
`readFar` reads it. Which end is which follows from the declared direction. -/
def readLink (readFar : Value → Except HydrationError Node) (rel : Relationship)
    (subject : Identity) : Value → Except HydrationError NodeLink
  | .map entries => do
    let identity ← projectedIdentity entries rel.name
    let type := ((KeyedList.get? entries typeKey).bind Value.string?).getD rel.type
    match KeyedList.get? entries rel.nodeKey with
    | none => throw (.missingEagerField rel.name rel.nodeKey)
    | some far =>
      let other ← readFar far
      -- A relationship that points both ways is taken to start at the subject.
      let (startNode, endNode) :=
        if rel.direction = .incoming then (other.identity, subject) else (subject, other.identity)
      return .mk identity type rel.name rel.nodeKey (shown rel.properties entries) startNode endNode
        other
  | other => .error (.unexpectedValue rel.name "relationship projection" other.typeName)

/-- An eager field, with far ends as `readFar` reads them. -/
def readField (readFar : Value → Except HydrationError Node) (model : EntityType)
    (rel : Relationship) (subject : Identity) (value : Value) :
    Except HydrationError NodeField := do
  let context := model.name ++ "." ++ rel.name
  match rel.shape with
  | .node => if value.isNull then return .node none else return .node (some (← readFar value))
  | .nodes => return .nodes (← (← listItems context value).mapM readFar)
  | .relationship =>
    if value.isNull then return .relationship none
    else return .relationship (some (← readLink readFar rel subject value))
  | .relationships =>
    return .relationships (← (← listItems context value).mapM (readLink readFar rel subject))

/-- The eager field of a source that is declared by a relationship, with nodes as `readNode` reads
them once it is told whether their type was known to the projection. -/
def readEager (registry : Registry)
    (readNode : Bool → Option EntityType → Value → Except HydrationError Node) (source : Source)
    (rel : Relationship) : Except HydrationError (String × NodeField) :=
  match KeyedList.get? source.entries rel.name with
  | none => .error (.missingEagerField source.model.name rel.name)
  | some value =>
    match registry.target rel with
    | .error _ =>
      .error (.unresolvedTarget source.model.name rel.name (rel.target.name?.getD ""))
    | .ok target => do
      let readFar := readNode target.isSome target
      return (rel.name, ← readField readFar source.model rel source.identity value)

/-- Loads a node, with its eager fields for so many levels. `typed` says whether the projection knew
its type. -/
def node (registry : Registry) :
    Nat → Bool → Option EntityType → Value → Except HydrationError Node
  | 0, _, model, value => do return (← readSource registry model value).node []
  | levels + 1, typed, model, value => do
    let source ← readSource registry model value
    -- A node as the database hands it out has no eager fields to read.
    if typed && source.projected then
      let fields ← source.model.eager.mapM (readEager registry (node registry levels) source)
      return source.node fields
    else return source.node []

end Hydration

/-- Loads the node of a value under a limit of depth, of which the root is the first level. -/
def Node.ofValue (registry : Registry) (limit depth : Nat) (model : Option EntityType)
    (value : Value) : Except HydrationError Node :=
  Hydration.node registry (Projection.levels limit depth) true model value

/-- Loads the node in one column of a row; there is none where the column is null. -/
def Node.ofRow (registry : Registry) (limit : Nat) (var : String) (model : Option EntityType)
    (row : Row) : Except HydrationError (Option Node) :=
  match row.get? var with
  | none => .error (.missingColumn var)
  | some .null => .ok none
  | some value => (Node.ofValue registry limit 1 model value).map some

/-- Loads the nodes in one column of all rows. -/
def Node.ofRows (registry : Registry) (limit : Nat) (var : String) (model : Option EntityType)
    (rows : List Row) : Except HydrationError (List Node) := do
  let nodes ← rows.mapM (Node.ofRow registry limit var model)
  return nodes.filterMap id

/-- Loads the node in one column of the first row. -/
def Node.ofFirstRow (registry : Registry) (limit : Nat) (var : String)
    (model : Option EntityType) : List Row → Except HydrationError (Option Node)
  | [] => .ok none
  | row :: _ => Node.ofRow registry limit var model row

/-- The loaded form of a relationship that the database handed out, with its loaded far node. -/
def NodeLink.ofStored (rel : Relationship) (stored : StoredRelationship) (other : Node) :
    NodeLink :=
  .mk stored.identity stored.type rel.name rel.nodeKey (Hydration.shown rel.properties
    stored.properties) stored.startNode stored.endNode other

end GraphMapper
