import GraphMapper.Mapper.Request

/-!
# Relating entities

Two entities are connected through a relationship that the first one declares, and all connections
between two entities can be cut.
-/

namespace GraphMapper

open Cypher (Step Verb)

/-- Whether a relationship is created beside those that are there already. -/
inductive RelateMode where
  | reuse
  | create
  deriving DecidableEq

/-- The verb that writes the relationship. -/
def RelateMode.verb : RelateMode → Verb
  | .reuse => .merge
  | .create => .create

namespace Mapper

variable (mapper : Mapper)

/-- The steps that connect two entities, each found by its identity, and set the properties of the
relationship. -/
def relateSteps (mode : RelateMode) (subject other : Node) (rel : Relationship)
    (properties : Bag) : List Step :=
  [.start .find "from" subject.model.labels [],
    .andNode "to" other.model.labels,
    .whereId "from" subject.identity,
    .whereId "to" other.identity,
    .start mode.verb "from" [] [],
    .relationship (some "rel") [rel.type] rel.direction.forWriting none,
    .to "to" [] []]
    ++ Step.setProperties "rel" properties

/-- The loaded relationship in a row, with its loaded far node. -/
def relatedLink (subject other : Node) (rel : Relationship) (row : Option Row) :
    Except MapperError NodeLink :=
  let unexpected (found : String) : MapperError :=
    .hydration (.unexpectedValue (subject.model.name ++ "." ++ rel.name) "relationship" found)
  match row.bind fun row => row.get? "rel" with
  | some (.relationship identity type startNode endNode properties) =>
    .ok (NodeLink.ofStored rel ⟨identity, type, startNode, endNode, properties⟩ other)
  | some value => .error (unexpected value.typeName)
  | none => .error (unexpected "nothing")

/-- The request that connects two entities. -/
def relateRequest (mode : RelateMode) (subject other : Node) (name : String) (payload : Bag) :
    Except MapperError (Request NodeLink) := do
  match subject.model.relationship? name with
  | none => throw (.relationshipNotFound subject.model.name name)
  | some rel =>
    let kept ← (relationshipBag rel payload).mapError .validation
    let expression ← mapper.returned "to" other.model
    let query ← queryOf
      (relateSteps mode subject other rel (KeyedList.remove kept rel.nodeKey)
        ++ [.returning ["rel", expression]])
    return ⟨.write, query, fun rows => do
      let far ← mapper.firstNode "to" other.model
        ("relate " ++ subject.model.name ++ "." ++ name) rows
      relatedLink subject far rel rows.head?⟩

/-- Connects two entities through the relationship that the first one declares under a name. -/
def relate (mode : RelateMode) (subject other : Node) (name : String) (payload : Bag) :
    Dialogue (Except MapperError NodeLink) :=
  Dialogue.ofRequest (mapper.relateRequest mode subject other name payload)

/-- The steps that delete every relationship between two entities, whichever way it points. -/
def detachSteps (subject other : Node) : List Step :=
  [.start .find "from" subject.model.labels [],
    .relationship (some "rel") [] .both none,
    .to "to" other.model.labels [],
    .whereId "from" subject.identity,
    .whereId "to" other.identity,
    .delete "rel"]

/-- Deletes every relationship between two entities. -/
def detach (subject other : Node) : Dialogue (Except MapperError Unit) :=
  Dialogue.ofRequest ((queryOf (detachSteps subject other)).map
    fun query => ⟨.write, query, fun _ => .ok ()⟩)

end Mapper

end GraphMapper
