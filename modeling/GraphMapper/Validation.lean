import GraphMapper.Coercion
import GraphMapper.Schema.EntityType

/-!
# Validation

The declared properties of a payload are checked and coerced in the order of their declarations, and
every failure is reported. Other keys are left alone. A null clears a property: it is kept as it is,
unless a new entity needs a value there.
-/

namespace GraphMapper

/-- One field that is refused, and why. The path leads to it from the root of the payload. -/
structure FieldFailure where
  path : String
  refusal : Refusal
  deriving DecidableEq

/-- Path and reason. -/
def FieldFailure.text (diagnosis : Diagnosis) (failure : FieldFailure) : String :=
  failure.path ++ ": " ++ failure.refusal.message diagnosis

/-- The fields that are refused. -/
structure ValidationError where
  failures : List FieldFailure
  deriving DecidableEq

namespace ValidationError

/-- The refusal of one field, for a reason in words. -/
def field (path reason : String) : ValidationError := ⟨[⟨path, .stated reason⟩]⟩

/-- The failures as they are seen from further out. -/
def under (path : String) (e : ValidationError) : ValidationError :=
  ⟨e.failures.map fun failure => { failure with path := path ++ "." ++ failure.path }⟩

/-- The text of the error. -/
def message (diagnosis : Diagnosis) (e : ValidationError) : String :=
  "validation failed: " ++ Text.joined "; " (e.failures.map (FieldFailure.text diagnosis))

end ValidationError

/-- Whether all required properties must have a value. -/
inductive ValidationMode where
  | create
  | update
  deriving DecidableEq

/-- What has been checked so far, and what was refused. -/
structure Checked where
  bag : Bag
  failures : List FieldFailure := []

/-- Records that a field is refused. -/
def Checked.refuse (checked : Checked) (name : String) (refusal : Refusal) : Checked :=
  { checked with failures := checked.failures ++ [⟨name, refusal⟩] }

/-- Checks and coerces one property. -/
def checkProperty (mode : ValidationMode) (checked : Checked) (p : Property) : Checked :=
  let rest := KeyedList.remove checked.bag p.name
  match checked.bag.present? p.name with
  | none =>
    if mode = .create ∧ p.required then { checked with bag := rest }.refuse p.name .required
    -- A null that is let through stays in the bag and clears the property.
    else checked
  | some value =>
    match coerce p.type value with
    | .ok value => { checked with bag := KeyedList.put rest p.name value }
    | .error refusal => { checked with bag := rest }.refuse p.name refusal

/-- The bag, unless a field of it was refused. -/
def Checked.result (checked : Checked) : Except ValidationError Bag :=
  if checked.failures.isEmpty then .ok checked.bag else .error ⟨checked.failures⟩

/-- Checks and coerces the declared properties of a bag. -/
def validate (mode : ValidationMode) (model : EntityType) (bag : Bag) :
    Except ValidationError Bag :=
  (model.properties.foldl (checkProperty mode) { bag := bag }).result

/-- The entry of the far node in the bag of a relationship, if there is one. -/
def farEntry (rel : Relationship) (bag : Bag) : Bag :=
  match KeyedList.get? bag rel.nodeKey with
  | some node => [(rel.nodeKey, node)]
  | none => []

/-- Takes one declared property of a relationship from what is given to what is kept. -/
def keepProperty (state : Bag × Checked) (p : Property) : Bag × Checked :=
  let (given, kept) := state
  let rest := KeyedList.remove given p.name
  match given.present? p.name with
  | none => (rest, kept)
  | some value =>
    match coerce p.type value with
    | .ok value => (rest, { kept with bag := KeyedList.put kept.bag p.name value })
    | .error refusal => (rest, kept.refuse p.name refusal)

/-- What is kept of the properties of a relationship: the entry of the far node and the declared
properties that have a value, coerced. -/
def relationshipBag (rel : Relationship) (bag : Bag) : Except ValidationError Bag :=
  let given := KeyedList.remove bag rel.nodeKey
  (rel.properties.foldl keepProperty (given, { bag := farEntry rel bag })).2.result

end GraphMapper
