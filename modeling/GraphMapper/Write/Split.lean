import GraphMapper.Schema.EntityType

/-!
# Splitting a bag

A bag of properties is written in three parts: what stands in the pattern itself, what is set only
if the entity is created, and what is set in any case. A creation has all of it in the pattern. A
merge has there what it finds the entity by: the merge fields of the type or, for a type that has
none, every property.

A value that a default filled in says nothing about which entity is meant. The bag names such values
under a reserved key, and a merge writes them only on creation, unless the caller gave nothing else
to find the entity by.
-/

namespace GraphMapper

/-- How an entity is written. -/
inductive WriteMode where
  | create
  | merge
  deriving DecidableEq

/-- The mode as it is spelt. -/
def WriteMode.name : WriteMode → String
  | .create => "create"
  | .merge => "merge"

/-- The mode of that name. -/
def WriteMode.ofName? : String → Option WriteMode
  | "create" => some .create
  | "merge" => some .merge
  | _ => none

/-- The key under which a bag names the properties that defaults filled in. -/
def defaultedKey : String := "__DEFAULTED__"

/-- The names under the reserved key. -/
def defaultedNames (bag : Bag) : List String :=
  match KeyedList.get? bag defaultedKey with
  | some (.list items) => items.filterMap Value.string?
  | _ => []

/-- Puts names under the reserved key, if there are any. -/
def markDefaulted (bag : Bag) (names : List String) : Bag :=
  if names.isEmpty then bag
  else KeyedList.put bag defaultedKey (.list (names.map .string))

/-- The three parts of a bag. -/
structure Split where
  inline : Bag := []
  onCreate : Bag := []
  set : Bag := []

/-- The parts of a bag. -/
inductive Part where
  | inline
  | onCreate
  | set
  deriving DecidableEq

/-- Whether the caller gave a value for the property. -/
def isSupplied (bag : Bag) (name : String) : Bool :=
  (bag.present? name).isSome && !(defaultedNames bag).contains name

/-- Whether the caller gave anything by which a merge finds the entity. -/
def isKeyed (model : EntityType) (bag : Bag) : Bool :=
  if model.mergeFields.isEmpty then model.properties.any fun p => isSupplied bag p.name
  else model.mergeFields.any (isSupplied bag)

/-- The part in which a merge writes a property. -/
def mergePart (model : EntityType) (bag : Bag) (p : Property) : Part :=
  if isKeyed model bag ∧ p.name ∈ defaultedNames bag then .onCreate
  else if model.mergeFields.isEmpty then .inline
  -- From here on the type has merge fields, which alone tell its entities apart.
  else if p.name ∈ model.mergeFields then .inline
  else if p.primary || p.createOnly || p.readonly then .onCreate
  else .set

/-- The part in which a property is written. -/
def partOf (mode : WriteMode) (model : EntityType) (bag : Bag) (p : Property) : Part :=
  match mode with
  | .create => .inline
  | .merge => mergePart model bag p

/-- Adds an entry to a part. -/
def Split.add (split : Split) (part : Part) (key : String) (value : Value) : Split :=
  match part with
  | .inline => { split with inline := KeyedList.put split.inline key value }
  | .onCreate => { split with onCreate := KeyedList.put split.onCreate key value }
  | .set => { split with set := KeyedList.put split.set key value }

/-- Adds a property to the part in which it is written, if the bag has a value for it. -/
def Split.addProperty (mode : WriteMode) (model : EntityType) (bag : Bag) (split : Split)
    (p : Property) : Split :=
  match bag.present? p.name with
  | some value => split.add (partOf mode model bag p) p.name value
  | none => split

/-- Splits the declared properties of a bag that are not null. -/
def splitProperties (mode : WriteMode) (model : EntityType) (bag : Bag) : Split :=
  model.properties.foldl (Split.addProperty mode model bag) {}

end GraphMapper
