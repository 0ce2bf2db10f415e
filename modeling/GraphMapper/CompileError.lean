import GraphMapper.Text.Quoted

/-!
# Compile errors

Why a request cannot be made into a query.
-/

namespace GraphMapper

/-- The causes for which a request is not compiled. -/
inductive CompileError where
  | unresolvedTarget (relationship model : String)
  | missingPrimaryKey (relationship model target : String)
  | invalidReference (relationship model found : String)
  | missingRelationshipNode (relationship model key : String)
  | depthExceeded (limit : Nat) (relationship : String)
  deriving DecidableEq

/-- The text of the error. -/
def CompileError.message : CompileError → String
  | .unresolvedTarget relationship model =>
    "a target definition must be registered for " ++ relationship ++ " on model " ++ model
  | .missingPrimaryKey relationship model target =>
    relationship ++ " on model " ++ model ++ " points at " ++ target
      ++ ", which has no primary key"
  | .invalidReference relationship model found =>
    relationship ++ " on model " ++ model ++ " cannot reference a " ++ found ++ " value"
  | .missingRelationshipNode relationship model key =>
    relationship ++ " on model " ++ model ++ " is missing its node under key " ++ Text.quoted key
  | .depthExceeded limit relationship =>
    "nested write exceeded the depth limit of " ++ toString limit ++ " at " ++ relationship

end GraphMapper
