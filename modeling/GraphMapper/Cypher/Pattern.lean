import GraphMapper.Cypher.Name
import GraphMapper.Schema.Relationship
import GraphMapper.Text.Joined

/-!
# Patterns

A path is a row of node patterns and relationship patterns. Values never stand in a pattern, only
the names of parameters.
-/

namespace GraphMapper.Cypher

open Text (joined)

/-- A property that has to equal a parameter. -/
structure PropertyPair where
  key : String
  param : String
  deriving DecidableEq

/-- A node, with a variable or without one. -/
structure NodePattern where
  var : Option String := none
  labels : List String := []
  properties : List PropertyPair := []
  deriving DecidableEq

/-- How many relationships in a row a relationship pattern stands for. -/
structure Hops where
  min : Option Nat
  max : Option Nat
  deriving DecidableEq

/-- A relationship, with a variable or without one, of any of several types. -/
structure RelationshipPattern where
  var : Option String
  types : List String
  direction : Direction
  hops : Option Hops
  deriving DecidableEq

/-- A step of a path. -/
inductive PathElement where
  | node (pattern : NodePattern)
  | relationship (pattern : RelationshipPattern)
  deriving DecidableEq

/-- A path. -/
structure Path where
  elements : List PathElement := []
  deriving DecidableEq

/-- The key and the parameter. -/
def PropertyPair.text (pair : PropertyPair) : String :=
  quoteName pair.key ++ ": $" ++ pair.param

/-- Variable, labels and properties between parentheses. -/
def NodePattern.text (node : NodePattern) : String :=
  let labels := String.join (node.labels.map fun label => ":" ++ quoteName label)
  let properties :=
    if node.properties = [] then ""
    else " \x7b " ++ joined ", " (node.properties.map PropertyPair.text) ++ " \x7d"
  "(" ++ node.var.getD "" ++ labels ++ properties ++ ")"

/-- A star and the bounds; equal bounds are written once. -/
def Hops.text : Hops → String
  | ⟨none, none⟩ => "*"
  | ⟨some min, none⟩ => "*" ++ toString min ++ ".."
  | ⟨none, some max⟩ => "*.." ++ toString max
  | ⟨some min, some max⟩ =>
    if min = max then "*" ++ toString min else "*" ++ toString min ++ ".." ++ toString max

/-- The types of a relationship behind a colon, one of which must fit. -/
def typesText : List String → String
  | [] => ""
  | types => ":" ++ joined "|" (types.map quoteName)

/-- An arrow, with variable, types and length between brackets if there are any. -/
def RelationshipPattern.text (rel : RelationshipPattern) : String :=
  let detail :=
    if rel.var = none ∧ rel.types = [] ∧ rel.hops = none then ""
    else "[" ++ rel.var.getD "" ++ typesText rel.types ++ (rel.hops.map Hops.text).getD "" ++ "]"
  (if rel.direction = .incoming then "<" else "") ++ "-" ++ detail ++ "-"
    ++ (if rel.direction = .outgoing then ">" else "")

/-- A node or a relationship. -/
def PathElement.text : PathElement → String
  | .node pattern => pattern.text
  | .relationship pattern => pattern.text

/-- The elements one after the other. -/
def Path.text (path : Path) : String :=
  String.join (path.elements.map PathElement.text)

end GraphMapper.Cypher
