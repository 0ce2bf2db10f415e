import GraphMapper.Calendar.Reader
import GraphMapper.Schema.Property
import GraphMapper.Text.Blank
import GraphMapper.Text.Quoted
import GraphMapper.Uuid

/-!
# Coercion

A value given for a property is brought to the declared type of the property or refused. A value of
the declared type is left as it is; numbers, truth values and texts are converted where the text or
the number denotes a value of that type, and a map of coordinates becomes a point.

A refusal of a malformed identifier, date or time ends with what its reader says of the text. What
that is, only the text and the format decide, and `Refusal.message` takes it as a `Diagnosis`.
-/

namespace GraphMapper

/-- The formats whose readers say what is wrong with a text. -/
inductive TextFormat where
  | uuid
  | date
  | dateTime
  | localDateTime
  | localTime
  deriving DecidableEq

/-- What a text of the format is called, with its article. -/
def TextFormat.title : TextFormat → String
  | .uuid => "a uuid"
  | .date => "a date"
  | .dateTime => "a datetime"
  | .localDateTime => "a local datetime"
  | .localTime => "a time"

/-- What the reader of a format says is wrong with a text. -/
abbrev Diagnosis : Type := TextFormat → String → String

/-- The reasons for which a value is refused. -/
inductive Refusal where
  /-- A required property has no value. -/
  | required
  | mismatch (expected : PropertyType) (found : String)
  /-- A text that denotes nothing of the kind the article and noun name. -/
  | unreadable (text kind : String)
  /-- A text that is not of a format. -/
  | malformed (text : String) (format : TextFormat)
  | incompletePoint
  /-- A reason that is given in words. -/
  | stated (reason : String)
  deriving DecidableEq

/-- The text of a refusal. -/
def Refusal.message (diagnosis : Diagnosis) : Refusal → String
  | .required => "is required"
  | .mismatch expected found => "expected " ++ expected.title ++ ", found " ++ found
  | .unreadable text kind => Text.quoted text ++ " is not " ++ kind
  | .malformed text format =>
    Text.quoted text ++ " is not " ++ format.title ++ ": " ++ diagnosis format text
  | .incompletePoint => "point needs latitude/longitude or x/y"
  | .stated reason => reason

namespace Coercion

/-- An integer of 64 bits, if the number is one. -/
def int64? (n : Int) : Option Int64 :=
  if Int64.minValue.toInt ≤ n ∧ n ≤ Int64.maxValue.toInt then some (Int64.ofInt n) else none

/-- The nearest integer of 64 bits. -/
def clamp (n : Int) : Int64 :=
  if n < Int64.minValue.toInt then Int64.minValue
  else if Int64.maxValue.toInt < n then Int64.maxValue
  else Int64.ofInt n

/-- Reads an integer of 64 bits. -/
def readInt? (s : String) : Option Int64 :=
  (Text.integer? s.toList).bind int64?

/-- Reads a truth value in any case. -/
def readBool? (s : String) : Option Bool :=
  match String.ofList (s.toList.map Char.toLower) with
  | "true" => some true
  | "false" => some false
  | _ => none

/-- The value that was read from a text, or the refusal of the text. -/
def orRefused (refusal : Refusal) : Option Value → Except Refusal Value
  | some value => .ok value
  | none => .error refusal

/-- Reads a text as a value of the declared type. White space around numbers and truth values does
not count. -/
def ofText (s : String) : PropertyType → Except Refusal Value
  | .any | .string => .ok (.string s)
  | .integer => orRefused (.unreadable s "an integer") ((readInt? (Text.trim s)).map .int)
  | .float => orRefused (.unreadable s "a float") ((Binary64.ofText? (Text.trim s)).map .float)
  | .number =>
    let t := Text.trim s
    match readInt? t with
    | some i => .ok (.int i)
    | none => orRefused (.unreadable t "a number") ((Binary64.ofText? t).map .float)
  | .boolean => orRefused (.unreadable s "a boolean") ((readBool? (Text.trim s)).map .bool)
  | .uuid => orRefused (.malformed s .uuid) ((Uuid.ofText? s).map fun u => .string u.text)
  | .date => orRefused (.malformed s .date) ((Date.ofText? s).map .date)
  | .dateTime => orRefused (.malformed s .dateTime) ((DateTime.ofText? s).map .dateTime)
  | .localDateTime =>
    orRefused (.malformed s .localDateTime) ((LocalDateTime.ofText? s).map .localDateTime)
  | .localTime => orRefused (.malformed s .localTime) ((Time.ofText? s).map .localTime)
  | .point => .error (.mismatch .point "string")

/-- A coordinate of a point. -/
def coordinate? (entries : Bag) (key : String) : Option Binary64 :=
  (KeyedList.get? entries key).bind Value.float?

/-- The point of a map of coordinates; latitude and longitude come before x and y. -/
def pointOf (entries : Bag) : Except Refusal Value :=
  match coordinate? entries "latitude", coordinate? entries "longitude" with
  | some latitude, some longitude => .ok (.point (.wgs84 longitude latitude))
  | _, _ =>
    match coordinate? entries "x", coordinate? entries "y" with
    | some x, some y => .ok (.point (.cartesian x y))
    | _, _ => .error .incompletePoint

end Coercion

open Coercion in
/-- Brings a value to a declared type. -/
def coerce (type : PropertyType) (value : Value) : Except Refusal Value :=
  let mismatch := Except.error (Refusal.mismatch type value.typeName)
  match type, value with
  | .any, value => .ok value
  | type, .string s => Coercion.ofText s type
  | .string, .int i => .ok (.string (toString i.toInt))
  | .string, .float x => .ok (.string x.positional)
  | .string, .bool b => .ok (.string (if b then "true" else "false"))
  | .integer, .int i => .ok (.int i)
  | .integer, .float x =>
    match x.toInt? with
    | some n => .ok (.int (clamp n))
    | none => mismatch
  | .float, .float x => .ok (.float x)
  | .float, .int i => .ok (.float (Binary64.ofInt i.toInt))
  | .number, .int i => .ok (.int i)
  | .number, .float x => .ok (.float x)
  | .boolean, .bool b => .ok (.bool b)
  | .date, .date d => .ok (.date d)
  | .dateTime, .dateTime m => .ok (.dateTime m)
  | .localDateTime, .localDateTime m => .ok (.localDateTime m)
  | .localTime, .localTime t => .ok (.localTime t)
  | .point, .point p => .ok (.point p)
  | .point, .map entries => pointOf entries
  | _, _ => mismatch

end GraphMapper
