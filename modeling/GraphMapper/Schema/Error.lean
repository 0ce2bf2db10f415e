import GraphMapper.Text.Quoted

/-!
# Schema errors

Why a schema cannot be built, or why a model is not in it.
-/

namespace GraphMapper

/-- The causes for which a schema is refused. -/
inductive SchemaError where
  | duplicateModel (name : String)
  | unknownModel (name : String)
  | multiplePrimaryKeys (model first second : String)
  | duplicateKey (model key : String)
  | unknownPropertyType (text : String)
  | invalidDefinition (model key reason : String)
  /-- A document that is no JSON, or has values of the wrong kind. -/
  | malformed
  deriving DecidableEq

/-- The text of the error. -/
def SchemaError.message : SchemaError → String
  | .duplicateModel name => "model " ++ name ++ " is already registered"
  | .unknownModel name => "no model registered under the name " ++ name
  | .multiplePrimaryKeys model first second =>
    "model " ++ model ++ " declares more than one primary key (" ++ first ++ ", " ++ second ++ ")"
  | .duplicateKey model key =>
    "model " ++ model ++ " declares " ++ key ++ " both as a property and as a relationship"
  | .unknownPropertyType text => "unknown property type " ++ Text.quoted text
  | .invalidDefinition model key reason =>
    "invalid declaration " ++ key ++ " on model " ++ model ++ ": " ++ reason
  | .malformed => "invalid schema document"

end GraphMapper
