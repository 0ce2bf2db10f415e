import GraphMapper.Calendar
import GraphMapper.Json
import GraphMapper.KeyedList

/-!
# Values

What flows into a query as a parameter and out of it in a row: null, the scalar, temporal and
spatial values of properties, lists and maps of values, and nodes and relationships as the database
hands them out. The entries of a map are a keyed list.

`Value.json` writes a value as JSON, where temporal values become text; `Value.ofJson` reads JSON
as a value.
-/

namespace GraphMapper

/-- The number by which the database knows a node or a relationship. -/
abbrev Identity : Type := Int64

/-- A point in the plane or in space, by the number of its coordinate system. -/
structure Point where
  srid : Nat
  x : Binary64
  y : Binary64
  z : Option Binary64
  deriving DecidableEq

/-- A value of a property, of a parameter or of a column. -/
inductive Value where
  | null
  | bool (value : Bool)
  | int (value : Int64)
  | float (value : Binary64)
  | string (value : String)
  | date (value : Date)
  | dateTime (value : DateTime)
  | localDateTime (value : LocalDateTime)
  | localTime (value : Time)
  | point (value : Point)
  | list (items : List Value)
  | map (entries : List (String × Value))
  | node (identity : Identity) (labels : List String) (properties : List (String × Value))
  | relationship (identity : Identity) (type : String) (startNode endNode : Identity)
      (properties : List (String × Value))

/-- Values by name: the properties of an entity, or the parameters of a query. -/
abbrev Bag : Type := KeyedList Value

/-- A relationship as the database hands it out. -/
structure StoredRelationship where
  identity : Identity
  type : String
  startNode : Identity
  endNode : Identity
  properties : Bag

/-- The coordinate system of longitude and latitude. -/
def Point.wgs84 (longitude latitude : Binary64) : Point := ⟨4326, longitude, latitude, none⟩

/-- The coordinate system of the plane. -/
def Point.cartesian (x y : Binary64) : Point := ⟨7203, x, y, none⟩

namespace Value

/-- Whether the value is null. -/
def isNull : Value → Bool
  | .null => true
  | _ => false

/-- The truth value, if it is one. -/
def bool? : Value → Option Bool
  | .bool b => some b
  | _ => none

/-- The integer, if it is one. -/
def int? : Value → Option Int64
  | .int i => some i
  | _ => none

/-- The items of a list. -/
def items? : Value → Option (List Value)
  | .list items => some items
  | _ => none

/-- The entries of a map. -/
def entries? : Value → Option Bag
  | .map entries => some entries
  | _ => none

/-- The number of an integer or a floating-point value. -/
def float? : Value → Option Binary64
  | .float x => some x
  | .int i => some (Binary64.ofInt i.toInt)
  | _ => none

/-- The text of a string. -/
def string? : Value → Option String
  | .string s => some s
  | _ => none

/-- The identity a value carries: an integer, or that of a node or relationship. -/
def identity? : Value → Option Identity
  | .int i => some i
  | .node identity _ _ => some identity
  | .relationship identity _ _ _ _ => some identity
  | _ => none

/-- Whether the value can stand for a node by its primary key. -/
def isScalar : Value → Bool
  | .bool _ | .int _ | .float _ | .string _ => true
  | _ => false

/-- The name of the kind of value. -/
def typeName : Value → String
  | .null => "null"
  | .bool _ => "boolean"
  | .int _ => "integer"
  | .float _ => "float"
  | .string _ => "string"
  | .date _ => "date"
  | .dateTime _ => "datetime"
  | .localDateTime _ => "localdatetime"
  | .localTime _ => "localtime"
  | .point _ => "point"
  | .list _ => "list"
  | .map _ => "map"
  | .node .. => "node"
  | .relationship .. => "relationship"

/-- A number in JSON, null where it is not finite. -/
def floatJson (x : Binary64) : Json :=
  if x.isFinite then .float x else .null

/-- A point in JSON, without the third coordinate if it has none. -/
def pointJson (p : Point) : Json :=
  let height := match p.z with
    | some z => [("z", floatJson z)]
    | none => []
  .object ([("srid", .integer p.srid), ("x", floatJson p.x), ("y", floatJson p.y)] ++ height)

mutual

/-- The value in JSON. Of what it is only the content remains: a date becomes a string, a node an
object. -/
def json : Value → Json
  | .null => .null
  | .bool b => .bool b
  | .int i => .integer i.toInt
  | .float x => floatJson x
  | .string s => .string s
  | .date d => .string d.text
  | .dateTime m => .string m.text
  | .localDateTime m => .string m.text
  | .localTime t => .string t.text
  | .point p => pointJson p
  | .list items => .array (jsonItems items)
  | .map entries => .object (jsonEntries entries)
  | .node identity labels properties => .object [
      ("identity", .integer identity.toInt),
      ("labels", .array (labels.map .string)),
      ("properties", .object (jsonEntries properties))]
  | .relationship identity type startNode endNode properties => .object [
      ("end", .integer endNode.toInt),
      ("identity", .integer identity.toInt),
      ("properties", .object (jsonEntries properties)),
      ("start", .integer startNode.toInt),
      ("type", .string type)]

/-- The items of a list in JSON. -/
def jsonItems : List Value → List Json
  | [] => []
  | item :: rest => item.json :: jsonItems rest

/-- The entries of a map in JSON. -/
def jsonEntries : List (String × Value) → List (String × Json)
  | [] => []
  | (key, value) :: rest => (key, value.json) :: jsonEntries rest

end

/-- The integer as a value, if it has 64 bits, and the nearest floating-point number otherwise. -/
def ofInteger (n : Int) : Value :=
  if Int64.minValue.toInt ≤ n ∧ n ≤ Int64.maxValue.toInt then .int (Int64.ofInt n)
  else .float (Binary64.ofInt n)

mutual

/-- JSON as a value. Of several entries of an object under one key the last one counts. -/
def ofJson : Json → Value
  | .null => .null
  | .bool b => .bool b
  | .integer n => ofInteger n
  | .float x => .float x
  | .string s => .string s
  | .array items => .list (ofJsonItems items)
  | .object entries => .map (KeyedList.ofPairs (ofJsonEntries entries))

/-- The items of a JSON array as values. -/
def ofJsonItems : List Json → List Value
  | [] => []
  | item :: rest => ofJson item :: ofJsonItems rest

/-- The entries of a JSON object as values. -/
def ofJsonEntries : List (String × Json) → List (String × Value)
  | [] => []
  | (key, value) :: rest => (key, ofJson value) :: ofJsonEntries rest

end

end Value

namespace Bag

/-- The bag in JSON. -/
def json (bag : Bag) : Json := .object (Value.jsonEntries bag)

/-- The value under a key, unless there is none or it is null. -/
def present? (bag : Bag) (key : String) : Option Value :=
  (KeyedList.get? bag key).filter fun value => !value.isNull

/-- The entries whose value is not null. -/
def nonNull (bag : Bag) : Bag :=
  bag.filter fun entry => !entry.2.isNull

end Bag

end GraphMapper
