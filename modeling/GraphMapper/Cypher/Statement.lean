import GraphMapper.Cypher.Filter
import GraphMapper.Cypher.Pattern

/-!
# Statements

One stanza of a query: a head with its paths, and sections that are written in a fixed order,
whatever the order they were added in. A section that holds nothing is not written.
-/

namespace GraphMapper.Cypher

open Text (joined)

/-- What a SET item does with its target. -/
inductive SetOperator where
  | assign
  | merge
  deriving DecidableEq

/-- The operator of a SET item. -/
def SetOperator.text : SetOperator → String
  | .assign => "="
  | .merge => "+="

/-- An item of a SET section. -/
inductive SetItem where
  | value (target : String) (operator : SetOperator) (param : String)
  | raw (text : String)
  deriving DecidableEq

/-- The text of a SET item. -/
def SetItem.text : SetItem → String
  | .value target operator param => target ++ " " ++ operator.text ++ " $" ++ param
  | .raw text => text

/-- Which way rows are ordered. -/
inductive SortOrder where
  | ascending
  | descending
  deriving DecidableEq

/-- The word of an order. -/
def SortOrder.text : SortOrder → String
  | .ascending => "ASC"
  | .descending => "DESC"

/-- An expression by which rows are ordered. -/
structure OrderItem where
  expression : String
  order : SortOrder
  deriving DecidableEq

/-- The expression and the order. -/
def OrderItem.text (item : OrderItem) : String :=
  item.expression ++ " " ++ item.order.text

/-- What a statement does with its paths. -/
inductive Verb where
  | find
  | findOptional
  | create
  | merge
  deriving DecidableEq

/-- The keyword of a verb. -/
def Verb.text : Verb → String
  | .find => "MATCH"
  | .findOptional => "OPTIONAL MATCH"
  | .create => "CREATE"
  | .merge => "MERGE"

/-- What a statement begins with: a verb, or the variables it takes over from the statements
before. -/
inductive Head where
  | paths (verb : Verb)
  | carry (vars : List String)
  deriving DecidableEq

/-- A statement. -/
structure Statement where
  head : Head
  paths : List Path := []
  filter : Filter := {}
  remove : List String := []
  onCreateSet : List SetItem := []
  onMatchSet : List SetItem := []
  set : List SetItem := []
  delete : List String := []
  detachDelete : List String := []
  returns : List String := []
  distinct : Bool := false
  orderBy : List OrderItem := []
  skip : Option Nat := none
  limit : Option Nat := none
  deriving DecidableEq

namespace Statement

/-- The head keyword and what follows it. -/
def pattern (s : Statement) : String :=
  match s.head with
  | .paths verb => verb.text ++ " " ++ joined ", " (s.paths.map Path.text)
  | .carry vars => "WITH " ++ joined ", " vars

/-- A section: nothing if there are no items, or one line. -/
def sectionLines (keyword : String) (items : List String) : List String :=
  if items.isEmpty then [] else [keyword ++ " " ++ joined ", " items]

/-- The lines behind the pattern. -/
def sections (s : Statement) : List String :=
  (if s.filter.isEmpty then [] else [s.filter.text])
    ++ sectionLines "REMOVE" s.remove
    ++ sectionLines "ON CREATE SET" (s.onCreateSet.map SetItem.text)
    ++ sectionLines "ON MATCH SET" (s.onMatchSet.map SetItem.text)
    ++ sectionLines "SET" (s.set.map SetItem.text)
    ++ sectionLines "DELETE" s.delete
    ++ sectionLines "DETACH DELETE" s.detachDelete
    ++ sectionLines (if s.distinct then "RETURN DISTINCT" else "RETURN") s.returns
    ++ sectionLines "ORDER BY" (s.orderBy.map OrderItem.text)
    ++ sectionLines "SKIP" (s.skip.map toString).toList
    ++ sectionLines "LIMIT" (s.limit.map toString).toList

/-- The text of a statement, a line for each section. -/
def text (s : Statement) : String :=
  joined "\n" (s.pattern :: s.sections)

/-- Whether a statement has nothing but its head and its paths. -/
def isBare (s : Statement) : Bool :=
  s.sections.isEmpty

end Statement

end GraphMapper.Cypher
