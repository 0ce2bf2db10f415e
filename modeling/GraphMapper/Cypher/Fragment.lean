import GraphMapper.Cypher.Statement
import GraphMapper.Json.Record

/-!
# Fragments in JSON

Every fragment of a query, from a property pair to a whole statement, can be read from JSON. A
structure is a record; an alternative is an object with one entry, which is its content by its name,
or the name alone if it has no content. A field that may be empty may also be left out or be null.
-/

namespace GraphMapper.Cypher

/-- The comparison of that name. -/
def Comparison.ofName? : String → Option Comparison
  | "Equals" => some .equals
  | "NotEquals" => some .notEquals
  | "LessThan" => some .lessThan
  | "LessEqual" => some .lessEqual
  | "GreaterThan" => some .greaterThan
  | "GreaterEqual" => some .greaterEqual
  | "In" => some .oneOf
  | "Contains" => some .contains
  | "StartsWith" => some .startsWith
  | "EndsWith" => some .endsWith
  | "Matches" => some .matchesPattern
  | _ => none

/-- The connector of that name. -/
def Connector.ofName? : String → Option Connector
  | "And" => some .and
  | "Or" => some .or
  | "Xor" => some .xor
  | _ => none

/-- The operator of that name. -/
def SetOperator.ofName? : String → Option SetOperator
  | "Assign" => some .assign
  | "Merge" => some .merge
  | _ => none

/-- The order of that name. -/
def SortOrder.ofName? : String → Option SortOrder
  | "Ascending" => some .ascending
  | "Descending" => some .descending
  | _ => none

/-- The greatest count of hops. -/
def maxHops : Nat := UInt32.size - 1

/-- The greatest number of rows to skip or to return. -/
def maxRows : Nat := UInt64.size - 1

/-- The slots of a record, whose array must have all of them. -/
def recordSlots? (names : List String) : Json → Option (List (Option Json))
  | .object entries => Json.slotsByName? names entries
  | .array items => if items.length = names.length then some (items.map some) else none
  | _ => none

/-- The slots of the content of an alternative, which is an object. -/
def contentSlots? (names : List String) : Json → Option (List (Option Json))
  | .object entries => Json.slotsByName? names entries
  | _ => none

/-- Reads the slot of a field that may be empty. -/
def optional? {α : Type} (read : Json → Option α) (slot : Option Json) : Option (Option α) :=
  Json.field? (Json.nullable? read) none slot

/-- Reads the slot of a string. -/
def stringField? : Option Json → Option String := Json.required? Json.string?

/-- Reads the slot of a list. -/
def listField? {α : Type} (read : Json → Option α) : Option Json → Option (List α) :=
  Json.required? (Json.list? read)

/-- Reads a property pair. -/
def PropertyPair.ofJson? (json : Json) : Option PropertyPair := do
  match ← recordSlots? ["key", "param"] json with
  | [key, param] => return ⟨← stringField? key, ← stringField? param⟩
  | _ => none

/-- Reads a node pattern. -/
def NodePattern.ofJson? (json : Json) : Option NodePattern := do
  match ← recordSlots? ["variable", "labels", "properties"] json with
  | [var, labels, properties] =>
    return ⟨← optional? Json.string? var, ← listField? Json.string? labels,
      ← listField? PropertyPair.ofJson? properties⟩
  | _ => none

/-- Reads a count of hops. -/
def Hops.ofJson? (json : Json) : Option Hops := do
  match ← recordSlots? ["min", "max"] json with
  | [min, max] =>
    return ⟨← optional? (Json.natural? maxHops) min, ← optional? (Json.natural? maxHops) max⟩
  | _ => none

/-- Reads a relationship pattern. -/
def RelationshipPattern.ofJson? (json : Json) : Option RelationshipPattern := do
  match ← recordSlots? ["variable", "types", "direction", "variable_length"] json with
  | [var, types, direction, hops] =>
    return ⟨← optional? Json.string? var, ← listField? Json.string? types,
      ← Json.required? (Json.choice? Direction.ofName?) direction, ← optional? Hops.ofJson? hops⟩
  | _ => none

/-- Reads a step of a path. -/
def PathElement.ofJson? : Json → Option PathElement
  | .object [("Node", content)] => (NodePattern.ofJson? content).map .node
  | .object [("Relationship", content)] => (RelationshipPattern.ofJson? content).map .relationship
  | _ => none

/-- Reads a path. -/
def Path.ofJson? (json : Json) : Option Path := do
  match ← recordSlots? ["elements"] json with
  | [elements] => return ⟨← listField? PathElement.ofJson? elements⟩
  | _ => none

/-- Reads a condition. -/
def Condition.ofJson? : Json → Option Condition
  | .object [("Compare", content)] => do
    match ← contentSlots? ["left", "operator", "param"] content with
    | [left, operator, param] =>
      return .compare (← stringField? left)
        (← Json.required? (Json.choice? Comparison.ofName?) operator) (← stringField? param)
    | _ => none
  | .object [("Between", content)] => do
    match ← contentSlots? ["expression", "floor", "ceiling"] content with
    | [expression, floor, ceiling] =>
      return .between (← stringField? expression) (← stringField? floor) (← stringField? ceiling)
    | _ => none
  | .object [("Identity", content)] => do
    match ← contentSlots? ["variable", "param"] content with
    | [var, param] => return .identity (← stringField? var) (← stringField? param)
    | _ => none
  | .object [("Raw", content)] => (Json.string? content).map .raw
  | _ => none

/-- Reads a predicate. -/
def Predicate.ofJson? (json : Json) : Option Predicate := do
  match ← recordSlots? ["condition", "negated"] json with
  | [condition, negated] =>
    return ⟨← Json.required? Condition.ofJson? condition, ← Json.required? Json.bool? negated⟩
  | _ => none

/-- Reads a group of predicates. -/
def FilterGroup.ofJson? (json : Json) : Option FilterGroup := do
  match ← recordSlots? ["join", "connector", "predicates"] json with
  | [join, connector, predicates] =>
    return ⟨← Json.required? (Json.choice? Connector.ofName?) join,
      ← Json.required? (Json.choice? Connector.ofName?) connector,
      ← listField? Predicate.ofJson? predicates⟩
  | _ => none

/-- Reads a filter. -/
def Filter.ofJson? (json : Json) : Option Filter := do
  match ← recordSlots? ["groups"] json with
  | [groups] => return ⟨← listField? FilterGroup.ofJson? groups⟩
  | _ => none

/-- Reads an item of a SET section. -/
def SetItem.ofJson? : Json → Option SetItem
  | .object [("Param", content)] => do
    match ← contentSlots? ["target", "operator", "param"] content with
    | [target, operator, param] =>
      return .value (← stringField? target)
        (← Json.required? (Json.choice? SetOperator.ofName?) operator) (← stringField? param)
    | _ => none
  | .object [("Raw", content)] => (Json.string? content).map .raw
  | _ => none

/-- Reads an expression by which rows are ordered. -/
def OrderItem.ofJson? (json : Json) : Option OrderItem := do
  match ← recordSlots? ["expression", "order"] json with
  | [expression, order] =>
    return ⟨← stringField? expression, ← Json.required? (Json.choice? SortOrder.ofName?) order⟩
  | _ => none

/-- The verb of that name. -/
def Verb.ofName? : String → Option Verb
  | "Match" => some .find
  | "OptionalMatch" => some .findOptional
  | "Create" => some .create
  | "Merge" => some .merge
  | _ => none

/-- Reads the head of a statement. -/
def Head.ofJson? : Json → Option Head
  | .object [("With", content)] => (Json.list? Json.string? content).map .carry
  | json => (Json.choice? Verb.ofName? json).map .paths

/-- The names of the fields of a statement. -/
def Statement.fieldNames : List String :=
  ["head", "patterns", "filter", "remove", "on_create_set", "on_match_set", "set", "delete",
    "detach_delete", "returns", "distinct", "order_by", "skip", "limit"]

/-- Reads a statement. -/
def Statement.ofJson? (json : Json) : Option Statement := do
  match ← recordSlots? Statement.fieldNames json with
  | [head, paths, filter, remove, onCreateSet, onMatchSet, set, delete, detachDelete, returns,
      distinct, orderBy, skip, limit] =>
    return {
      head := ← Json.required? Head.ofJson? head
      paths := ← listField? Path.ofJson? paths
      filter := ← Json.required? Filter.ofJson? filter
      remove := ← listField? Json.string? remove
      onCreateSet := ← listField? SetItem.ofJson? onCreateSet
      onMatchSet := ← listField? SetItem.ofJson? onMatchSet
      set := ← listField? SetItem.ofJson? set
      delete := ← listField? Json.string? delete
      detachDelete := ← listField? Json.string? detachDelete
      returns := ← listField? Json.string? returns
      distinct := ← Json.required? Json.bool? distinct
      orderBy := ← listField? OrderItem.ofJson? orderBy
      skip := ← optional? (Json.natural? maxRows) skip
      limit := ← optional? (Json.natural? maxRows) limit }
  | _ => none

end GraphMapper.Cypher
