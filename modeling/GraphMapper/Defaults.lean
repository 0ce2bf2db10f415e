import GraphMapper.Uuid
import GraphMapper.Write.Split

/-!
# Defaults

A property that a payload leaves out, or gives as null, gets its default; a uuid property that has
none gets a fresh identifier. Fresh identifiers and the results of generators come from a supply,
which is a value: whoever asks for defaults gets the rest of the supply back.
-/

namespace GraphMapper

/-- Identifiers that have not been used, and how many have been taken so far. -/
structure Supply where
  uuids : Nat → Uuid
  uuidsTaken : Nat := 0
  resultsTaken : Nat := 0

/-- Takes the next identifier. -/
def Supply.takeUuid : StateM Supply Uuid := fun supply =>
  (supply.uuids supply.uuidsTaken, { supply with uuidsTaken := supply.uuidsTaken + 1 })

/-- The value of a default; a generator gives its next result. -/
def DefaultValue.resolve : DefaultValue → StateM Supply Value
  | .literal value => pure value
  | .generator results => fun supply =>
    (results supply.resultsTaken, { supply with resultsTaken := supply.resultsTaken + 1 })

/-- Fills in one property. -/
def applyDefault (bag : Bag) (p : Property) : StateM Supply Bag := do
  if (bag.present? p.name).isSome then return bag
  match p.defaultValue, p.type with
  | some default, _ => return KeyedList.put bag p.name (← default.resolve)
  | none, .uuid => return KeyedList.put bag p.name (.string (← Supply.takeUuid).text)
  | none, _ => return bag

/-- Fills in the properties of a type. -/
def applyDefaults (model : EntityType) (bag : Bag) : StateM Supply Bag :=
  model.properties.foldlM applyDefault bag

/-- Fills in the properties of a type and notes which of them got a value that way. -/
def fillDefaults (model : EntityType) (bag : Bag) : StateM Supply Bag := do
  let missing := (model.properties.filter fun p => (bag.present? p.name).isNone).map Property.name
  let filled ← applyDefaults model bag
  return markDefaulted filled (missing.filter fun name => (filled.present? name).isSome)

end GraphMapper
