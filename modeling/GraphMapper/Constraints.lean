import GraphMapper.Cypher.Draft
import GraphMapper.Schema.Registry

/-!
# Constraints and indexes

What a schema asks of the database: a uniqueness constraint for every unique property, an index for
every other indexed one and, where the edition of the database has them, existence constraints for
required properties. Each has a name made from label, property and kind; of two with one name only
the first is installed.
-/

namespace GraphMapper

open Cypher

/-- The kinds of constraints and indexes. -/
inductive ConstraintKind where
  | unique
  | exists
  | index
  deriving DecidableEq

/-- The word of a kind in names. -/
def ConstraintKind.word : ConstraintKind → String
  | .unique => "unique"
  | .exists => "exists"
  | .index => "index"

/-- A constraint or an index on a property of the nodes with a label. -/
structure Constraint where
  kind : ConstraintKind
  label : String
  property : String
  deriving DecidableEq

namespace Constraint

/-- The name of a constraint. -/
def name (c : Constraint) : String :=
  identifierPart (c.label ++ "_" ++ c.property ++ "_" ++ c.kind.word)

/-- The statement that installs a constraint unless it is there. -/
def installText (c : Constraint) : String :=
  let place := " IF NOT EXISTS FOR (n:" ++ quoteName c.label ++ ")"
  match c.kind with
  | .unique =>
    "CREATE CONSTRAINT " ++ c.name ++ place ++ " REQUIRE n." ++ quoteName c.property ++ " IS UNIQUE"
  | .exists =>
    "CREATE CONSTRAINT " ++ c.name ++ place ++ " REQUIRE n." ++ quoteName c.property
      ++ " IS NOT NULL"
  | .index => "CREATE INDEX " ++ c.name ++ place ++ " ON (n." ++ quoteName c.property ++ ")"

/-- The statement that drops a constraint if it is there. -/
def dropText (c : Constraint) : String :=
  match c.kind with
  | .unique | .exists => "DROP CONSTRAINT " ++ c.name ++ " IF EXISTS"
  | .index => "DROP INDEX " ++ c.name ++ " IF EXISTS"

end Constraint

/-- The label that carries the constraints of a type: its name if that is a label of it, and its
first label otherwise. -/
def schemaLabel (model : EntityType) : String :=
  if model.name ∈ model.labels then model.name else model.labels.headD model.name

/-- The constraints of a property. -/
def propertyConstraints (existence : Bool) (label : String) (p : Property) : List Constraint :=
  (if p.unique then [⟨.unique, label, p.name⟩]
    else if p.indexed then [⟨.index, label, p.name⟩] else [])
    ++ (if existence && p.required then [⟨.exists, label, p.name⟩] else [])

/-- Every constraint that the types ask for, in order. -/
def requestedConstraints (registry : Registry) (existence : Bool) : List Constraint :=
  registry.models.flatMap fun model =>
    model.properties.flatMap (propertyConstraints existence (schemaLabel model))

/-- Adds a constraint unless there is one of the same name. -/
def addConstraint (kept : List Constraint) (c : Constraint) : List Constraint :=
  if kept.any fun other => other.name = c.name then kept else kept ++ [c]

/-- The constraints of a schema, of each name the first. -/
def constraints (registry : Registry) (existence : Bool) : List Constraint :=
  (requestedConstraints registry existence).foldl addConstraint []

/-- The queries that install all constraints. -/
def installQueries (registry : Registry) (existence : Bool) : List Query :=
  (constraints registry existence).map fun c => ⟨c.installText, []⟩

/-- The queries that drop all constraints. -/
def dropQueries (registry : Registry) (existence : Bool) : List Query :=
  (constraints registry existence).map fun c => ⟨c.dropText, []⟩

end GraphMapper
