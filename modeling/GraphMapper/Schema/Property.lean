import GraphMapper.Value

/-!
# Property declarations

A property of an entity type or of a relationship has a name, a declared type and flags. A default
is a value, or a generator of values, whose results are numbered from zero.
-/

namespace GraphMapper

/-- The declared type of a property. -/
inductive PropertyType where
  | string
  | integer
  | float
  | number
  | boolean
  | uuid
  | date
  | dateTime
  | localDateTime
  | localTime
  | point
  | any
  deriving DecidableEq

namespace PropertyType

/-- The type as documents spell it. -/
def name : PropertyType → String
  | .string => "string"
  | .integer => "integer"
  | .float => "float"
  | .number => "number"
  | .boolean => "boolean"
  | .uuid => "uuid"
  | .date => "date"
  | .dateTime => "datetime"
  | .localDateTime => "localdatetime"
  | .localTime => "localtime"
  | .point => "point"
  | .any => "any"

/-- The type as messages spell it. -/
def title : PropertyType → String
  | .string => "String"
  | .integer => "Integer"
  | .float => "Float"
  | .number => "Number"
  | .boolean => "Boolean"
  | .uuid => "Uuid"
  | .date => "Date"
  | .dateTime => "DateTime"
  | .localDateTime => "LocalDateTime"
  | .localTime => "LocalTime"
  | .point => "Point"
  | .any => "Any"

/-- Reads a type in lower case; three types have a short name too. -/
def ofName? : String → Option PropertyType
  | "string" => some .string
  | "int" => some .integer
  | "integer" => some .integer
  | "float" => some .float
  | "number" => some .number
  | "bool" => some .boolean
  | "boolean" => some .boolean
  | "uuid" => some .uuid
  | "date" => some .date
  | "datetime" => some .dateTime
  | "localdatetime" => some .localDateTime
  | "time" => some .localTime
  | "localtime" => some .localTime
  | "point" => some .point
  | "any" => some .any
  | _ => none

/-- Reads a type in any case. -/
def ofText? (s : String) : Option PropertyType :=
  ofName? (String.ofList (s.toList.map Char.toLower))

/-- Every type is read back from its name. -/
theorem ofName?_name (type : PropertyType) : ofName? type.name = some type := by
  cases type <;> rfl

end PropertyType

/-- What a property gets that a payload leaves out. -/
inductive DefaultValue where
  | literal (value : Value)
  | generator (results : Nat → Value)

/-- The declaration of a property. -/
structure Property where
  name : String
  type : PropertyType
  primary : Bool := false
  required : Bool := false
  unique : Bool := false
  indexed : Bool := false
  hidden : Bool := false
  readonly : Bool := false
  /-- Only the creation of an entity sets the property. -/
  createOnly : Bool := false
  defaultValue : Option DefaultValue := none

/-- The property as primary key, which is unique and never changes. -/
def Property.asPrimary (p : Property) : Property :=
  { p with primary := true, unique := true, createOnly := true }

/-- The property with one more flag, which is given by its name. -/
def Property.withFlag? (p : Property) : String → Option Property
  | "primary" => some p.asPrimary
  | "required" => some { p with required := true }
  | "unique" => some { p with unique := true }
  | "indexed" => some { p with indexed := true }
  | "hidden" => some { p with hidden := true }
  | "readonly" => some { p with readonly := true }
  | "protected" => some { p with createOnly := true }
  | _ => none

end GraphMapper
