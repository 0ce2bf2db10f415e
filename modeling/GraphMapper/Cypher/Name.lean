/-!
# Names in queries

A label, a relationship type or a property key stands in a query as it is when it is a plain
identifier, and between backticks, with its own backticks doubled, when it is not. Variables and
parameter names are always plain identifiers; they are made from names by putting an underscore for
every character that may not occur in one.
-/

namespace GraphMapper.Cypher

/-- Whether a character may occur in an identifier. -/
def isIdentifierChar (c : Char) : Bool := c.isAlphanum || c = '_'

/-- Whether a character may begin an identifier. -/
def isIdentifierStart (c : Char) : Bool := c.isAlpha || c = '_'

/-- Whether a name is a plain identifier. -/
def isIdentifier : List Char → Bool
  | [] => false
  | c :: rest => isIdentifierStart c && (c :: rest).all isIdentifierChar

/-- The character that encloses a quoted name. -/
def backtick : Char := '\x60'

/-- A name with each backtick doubled. -/
def doubleBackticks : List Char → List Char
  | [] => []
  | c :: rest => if c = backtick then c :: c :: doubleBackticks rest else c :: doubleBackticks rest

/-- A name as it stands in a query. -/
def quoteName (name : String) : String :=
  if isIdentifier name.toList then name
  else String.ofList (backtick :: (doubleBackticks name.toList ++ [backtick]))

/-- A name with an underscore for every character that is no ASCII letter or digit. -/
def identifierPart (name : String) : String :=
  String.ofList (name.toList.map fun c => if c.isAlphanum then c else '_')

/-- The two sides of a relationship pattern that need a variable. -/
inductive Side where
  | node
  | relationship
  deriving DecidableEq

/-- The word that tells the sides apart in a variable. -/
def Side.word : Side → String
  | .node => "node"
  | .relationship => "rel"

/-- The variable of one side of the relationship `name` of the entity with the variable `parent`. -/
def nestedVar (parent name : String) (side : Side) : String :=
  parent ++ "_" ++ identifierPart name ++ "_" ++ side.word

end GraphMapper.Cypher
