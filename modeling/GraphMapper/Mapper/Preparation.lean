import GraphMapper.Defaults
import GraphMapper.Mapper.Error

/-!
# Preparing a payload

Before a payload is written, defaults are filled in and its properties are checked, and so are those
of every bag under its relationship keys, down to a number of levels. An entry under the key of a
relationship to no registered type is left alone. The far node of a relationship-shaped item is kept
if it is a bag.

A failure names the field by its path from the root of the payload.
-/

namespace GraphMapper

/-- A computation that draws on the supply and may fail. The supply that is left is known even where
it fails. -/
abbrev Preparing (α : Type) : Type := ExceptT MapperError (StateM Supply) α

namespace Preparing

/-- Fails as a computation does that takes nothing from the supply. -/
def ofExcept {α : Type} : Except MapperError α → Preparing α
  | .ok value => pure value
  | .error e => throw e

/-- Fails as a validation does. -/
def ofValidation {α : Type} (checked : Except ValidationError α) : Preparing α :=
  ofExcept (checked.mapError .validation)

/-- Names the fields of a failed validation as they are seen from further out. -/
def under {α : Type} (path : String) (preparing : Preparing α) : Preparing α :=
  tryCatch preparing fun
    | .validation e => throw (.validation (e.under path))
    | e => throw e

end Preparing

/-- Fills in the defaults of one bag and checks its properties. -/
def prepareProperties (model : EntityType) (bag : Bag) : Preparing Bag := do
  let filled ← (fillDefaults model bag : StateM Supply Bag)
  Preparing.ofValidation (validate .create model filled)

/-- Prepares an item under the key of a relationship, with far bags as `prepareFar` does. What is no
bag refers to an entity that is there already. -/
def prepareItem (prepareFar : Bag → Preparing Bag) (rel : Relationship) : Value → Preparing Value
  | .map entries =>
    if rel.shape.isRelationship then do
      let kept ← Preparing.ofValidation (relationshipBag rel entries)
      match KeyedList.get? kept rel.nodeKey with
      -- Failures within the far bag are named by the key it stands under.
      | some (.map far) =>
        let far ← (prepareFar far).under rel.nodeKey
        return .map (KeyedList.put kept rel.nodeKey (.map far))
      | _ => return .map (KeyedList.remove kept rel.nodeKey)
    else do return .map (← prepareFar entries)
  | value => pure value

/-- Prepares an item of a list under the key of a relationship, whose failures are named by its
place in the list. -/
def prepareListed (prepareFar : Bag → Preparing Bag) (rel : Relationship) (item : Value × Nat) :
    Preparing Value :=
  (prepareItem prepareFar rel item.1).under (rel.name ++ "." ++ toString item.2)

/-- Prepares what is under the key of a relationship. -/
def prepareRelated (prepareFar : Bag → Preparing Bag) (rel : Relationship) :
    Value → Preparing Value
  | .list items => do return .list (← items.zipIdx.mapM (prepareListed prepareFar rel))
  | value => (prepareItem prepareFar rel value).under rel.name

/-- Prepares what a bag holds under the key of a relationship to a registered type, with far bags as
`prepareFar` does for that type. -/
def prepareUnder (registry : Registry) (prepareFar : EntityType → Bag → Preparing Bag) (bag : Bag)
    (rel : Relationship) : Preparing Bag :=
  match KeyedList.get? bag rel.name, registry.target? rel with
  | some value, some target => do
    return KeyedList.put bag rel.name (← prepareRelated (prepareFar target) rel value)
  | _, _ => pure bag

/-- Prepares a payload and the bags in it for so many levels. -/
def prepare (registry : Registry) : Nat → EntityType → Bag → Preparing Bag
  | 0, model, bag => prepareProperties model bag
  | levels + 1, model, bag => do
    let checked ← prepareProperties model bag
    model.relationships.foldlM (prepareUnder registry (prepare registry levels)) checked

end GraphMapper
