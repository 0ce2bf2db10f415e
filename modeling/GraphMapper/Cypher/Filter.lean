import GraphMapper.Text.Joined

/-!
# Filters

The conditions of a statement come in groups. Within a group the predicates are joined by the
connector of the group, and each group is joined to the one before it by its own `join`. Groups
without a predicate are not written.
-/

namespace GraphMapper.Cypher

open Text (joined)

/-- How two values are compared. -/
inductive Comparison where
  | equals
  | notEquals
  | lessThan
  | lessEqual
  | greaterThan
  | greaterEqual
  | oneOf
  | contains
  | startsWith
  | endsWith
  | matchesPattern
  deriving DecidableEq

/-- The operator of a comparison. -/
def Comparison.text : Comparison → String
  | .equals => "="
  | .notEquals => "<>"
  | .lessThan => "<"
  | .lessEqual => "<="
  | .greaterThan => ">"
  | .greaterEqual => ">="
  | .oneOf => "IN"
  | .contains => "CONTAINS"
  | .startsWith => "STARTS WITH"
  | .endsWith => "ENDS WITH"
  | .matchesPattern => "=~"

/-- A condition on an expression. Values are given by the names of parameters. -/
inductive Condition where
  | compare (left : String) (comparison : Comparison) (param : String)
  | between (expression floor ceiling : String)
  | identity (var param : String)
  | raw (text : String)
  deriving DecidableEq

/-- The text of a condition. -/
def Condition.text : Condition → String
  | .compare left comparison param => left ++ " " ++ comparison.text ++ " $" ++ param
  | .between expression floor ceiling =>
    "$" ++ floor ++ " <= " ++ expression ++ " <= $" ++ ceiling
  | .identity var param => "id(" ++ var ++ ") = $" ++ param
  | .raw text => text

/-- A condition that has to hold, or must not. -/
structure Predicate where
  condition : Condition
  negated : Bool
  deriving DecidableEq

/-- The condition, behind NOT where it must not hold. -/
def Predicate.text (p : Predicate) : String :=
  if p.negated then "NOT (" ++ p.condition.text ++ ")" else p.condition.text

/-- How conditions are combined. -/
inductive Connector where
  | and
  | or
  | xor
  deriving DecidableEq

/-- The word of a connector. -/
def Connector.text : Connector → String
  | .and => "AND"
  | .or => "OR"
  | .xor => "XOR"

/-- Predicates with one connector, and how they are joined to the group before. -/
structure FilterGroup where
  join : Connector := .and
  connector : Connector := .and
  predicates : List Predicate := []
  deriving DecidableEq

/-- The predicates between parentheses. -/
def FilterGroup.text (group : FilterGroup) : String :=
  "(" ++ joined (" " ++ group.connector.text ++ " ") (group.predicates.map Predicate.text) ++ ")"

/-- The conditions of a statement. -/
structure Filter where
  groups : List FilterGroup := []
  deriving DecidableEq

namespace Filter

/-- The groups that have a predicate. -/
def written (filter : Filter) : List FilterGroup :=
  filter.groups.filter fun group => !group.predicates.isEmpty

/-- Whether no group has a predicate. -/
def isEmpty (filter : Filter) : Bool :=
  filter.groups.all fun group => group.predicates.isEmpty

/-- The groups that have a predicate, each behind its join but the first. -/
def text (filter : Filter) : String :=
  match filter.written with
  | [] => ""
  | first :: rest =>
    "WHERE " ++ first.text
      ++ String.join (rest.map fun group => " " ++ group.join.text ++ " " ++ group.text)

/-- Adds a predicate to the last group, opening one if there is none. -/
def add (filter : Filter) (p : Predicate) : Filter :=
  match filter.groups.getLast? with
  | none => ⟨[{ predicates := [p] }]⟩
  | some group =>
    ⟨filter.groups.dropLast ++ [{ group with predicates := group.predicates ++ [p] }]⟩

/-- Opens a group. -/
def openGroup (filter : Filter) (join connector : Connector) : Filter :=
  ⟨filter.groups ++ [{ join := join, connector := connector }]⟩

end Filter

end GraphMapper.Cypher
