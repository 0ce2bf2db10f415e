import GraphMapper.Cypher.Statement
import GraphMapper.Value

/-!
# Drafts of queries

A query is drafted step by step. A step opens a statement or adds to the one that is open, and binds
every value it is given to a parameter with a name of its own; so a value reaches the text of a
query only as the name of a parameter. A step that needs an open statement or a path to go on from,
and finds none, is a fault of the caller.

`Draft.run` takes a list of steps, and `Draft.query` ends the draft.
-/

namespace GraphMapper.Cypher

/-- A query: its text, and the values of its parameters. -/
structure Query where
  text : String
  params : Bag := []

/-- The statements so far and the parameters. The statement that is open comes last. -/
structure Draft where
  closed : List Statement := []
  current : Option Statement := none
  params : Bag := []

/-- One step of a draft. -/
inductive Step where
  /-- Binds a value to a parameter with a name like `base`. -/
  | param (base : String) (value : Value)
  /-- Opens a statement with a path that begins at a node. -/
  | start (verb : Verb) (var : String) (labels : List String) (properties : Bag)
  /-- Begins another path of the open statement at a node. -/
  | andNode (var : String) (labels : List String)
  /-- Opens a statement that takes variables over. -/
  | carry (vars : List String)
  /-- Goes on from the last path along a relationship. -/
  | relationship (var : Option String) (types : List String) (direction : Direction)
      (hops : Option Hops)
  /-- Goes on to a node. -/
  | to (var : String) (labels : List String) (properties : Bag)
  | whereCompare (left : String) (comparison : Comparison) (value : Value) (negated : Bool)
  | whereBetween (expression : String) (floor ceiling : Value)
  | whereId (var : String) (identity : Identity)
  | whereRaw (text : String)
  | openGroup (join connector : Connector)
  | set (target : String) (value : Value)
  | setMerge (var : String) (properties : Bag)
  | setRaw (text : String)
  | onCreateSet (target : String) (value : Value)
  | onMatchSet (target : String) (value : Value)
  | remove (expression : String)
  | delete (var : String)
  | detachDelete (var : String)
  | returning (expressions : List String)
  | returnDistinct (expressions : List String)
  | orderBy (expression : String) (order : SortOrder)
  | skip (rows : Nat)
  | limit (rows : Nat)

/-- Why a step cannot be taken. -/
inductive Fault where
  | noStatement
  | noPath
  deriving DecidableEq

/-- The text of a fault. -/
def Fault.message : Fault → String
  | .noStatement => "no statement is open: call match_node, optional_match, create_node, "
      ++ "merge_node or with first"
  | .noPath => "the open statement has no pattern to extend"

/-- A parameter name made from a text: an identifier that begins with no digit. -/
def paramBase (base : String) : String :=
  let name := identifierPart base
  match name.toList with
  | [] => "p_"
  | c :: _ => if c.isDigit then "p_" ++ name else name

/-- The name itself, and then the name with the numbers from two on. -/
def numbered (name : String) : Nat → String
  | 0 => name
  | n + 1 => name ++ "_" ++ toString (n + 2)

/-- The first of the numbered names that is no key. One more name is tried than there are keys. -/
def freshName (params : Bag) (name : String) : String :=
  let free := (List.range (params.length + 1)).find? fun n =>
    !KeyedList.has params (numbered name n)
  numbered name (free.getD params.length)

namespace Draft

/-- Binds a value to a parameter and gives its name. -/
def addParam (draft : Draft) (base : String) (value : Value) : String × Draft :=
  let name := freshName draft.params (paramBase base)
  (name, { draft with params := KeyedList.put draft.params name value })

/-- The head and the paths of the open statement. -/
def pattern (draft : Draft) : String :=
  (draft.current.map Statement.pattern).getD ""

/-- Closes the open statement and opens another. -/
def openStatement (draft : Draft) (s : Statement) : Draft :=
  { draft with closed := draft.closed ++ draft.current.toList, current := some s }

/-- Changes the open statement. -/
def modify (draft : Draft) (change : Statement → Statement) : Except Fault Draft :=
  match draft.current with
  | some s => .ok { draft with current := some (change s) }
  | none => .error .noStatement

/-- Changes the open statement by a value, which is bound to a parameter first. -/
def modifyWith (draft : Draft) (base : String) (value : Value)
    (change : String → Statement → Statement) : Except Fault Draft :=
  -- Nothing is bound for a statement that is not there.
  match draft.current with
  | some _ => let (name, draft) := draft.addParam base value; draft.modify (change name)
  | none => .error .noStatement

/-- Appends an element to the last path of the open statement. -/
def extendPath (draft : Draft) (element : PathElement) : Except Fault Draft :=
  match draft.current with
  | none => .error .noStatement
  | some s =>
    match s.paths.getLast? with
    | none => .error .noPath
    | some path =>
      let paths := s.paths.dropLast ++ [⟨path.elements ++ [element]⟩]
      .ok { draft with current := some { s with paths := paths } }

/-- Binds the properties of a node that are not null, in the order of their keys. -/
def addProperties (draft : Draft) (var : String) : Bag → List PropertyPair × Draft
  | [] => ([], draft)
  | (key, value) :: rest =>
    if value.isNull then draft.addProperties var rest
    else
      let (name, draft) := draft.addParam (var ++ "_" ++ key) value
      let (pairs, draft) := draft.addProperties var rest
      (⟨key, name⟩ :: pairs, draft)

/-- A node pattern, whose properties are bound to parameters. -/
def nodePattern (draft : Draft) (var : String) (labels : List String) (properties : Bag) :
    NodePattern × Draft :=
  let (pairs, draft) := draft.addProperties var properties
  (⟨if var = "" then none else some var, labels, pairs⟩, draft)

/-- Adds a predicate to the open statement. -/
def addPredicate (condition : Condition) (negated : Bool) (s : Statement) : Statement :=
  { s with filter := s.filter.add ⟨condition, negated⟩ }

/-- The draft after one step. -/
def step (draft : Draft) : Step → Except Fault Draft
  | .param base value => .ok (draft.addParam base value).2
  | .start verb var labels properties =>
    let (node, draft) := draft.nodePattern var labels properties
    .ok (draft.openStatement { head := .paths verb, paths := [⟨[.node node]⟩] })
  | .andNode var labels =>
    let (node, draft) := draft.nodePattern var labels []
    draft.modify fun s => { s with paths := s.paths ++ [⟨[.node node]⟩] }
  | .carry vars => .ok (draft.openStatement { head := .carry vars })
  | .relationship var types direction hops =>
    draft.extendPath (.relationship ⟨var, types, direction, hops⟩)
  | .to var labels properties =>
    let (node, draft) := draft.nodePattern var labels properties
    draft.extendPath (.node node)
  | .whereCompare left comparison value negated =>
    draft.modifyWith ("where_" ++ left) value fun name =>
      addPredicate (.compare left comparison name) negated
  | .whereBetween expression floor ceiling =>
    match draft.current with
    | none => .error .noStatement
    | some _ =>
      let (floorName, draft) := draft.addParam ("where_" ++ expression ++ "_floor") floor
      draft.modifyWith ("where_" ++ expression ++ "_ceiling") ceiling fun ceilingName =>
        addPredicate (.between expression floorName ceilingName) false
  | .whereId var identity =>
    draft.modifyWith ("where_id_" ++ var) (.int identity) fun name =>
      addPredicate (.identity var name) false
  | .whereRaw text => draft.modify (addPredicate (.raw text) false)
  | .openGroup join connector =>
    draft.modify fun s => { s with filter := s.filter.openGroup join connector }
  | .set target value =>
    draft.modifyWith ("set_" ++ target) value fun name s =>
      { s with set := s.set ++ [.value target .assign name] }
  | .setMerge var properties =>
    draft.modifyWith ("set_" ++ var) (.map properties) fun name s =>
      { s with set := s.set ++ [.value var .merge name] }
  | .setRaw text => draft.modify fun s => { s with set := s.set ++ [.raw text] }
  | .onCreateSet target value =>
    draft.modifyWith ("set_" ++ target) value fun name s =>
      { s with onCreateSet := s.onCreateSet ++ [.value target .assign name] }
  | .onMatchSet target value =>
    draft.modifyWith ("set_" ++ target) value fun name s =>
      { s with onMatchSet := s.onMatchSet ++ [.value target .assign name] }
  | .remove expression => draft.modify fun s => { s with remove := s.remove ++ [expression] }
  | .delete var => draft.modify fun s => { s with delete := s.delete ++ [var] }
  | .detachDelete var =>
    draft.modify fun s => { s with detachDelete := s.detachDelete ++ [var] }
  | .returning expressions =>
    draft.modify fun s => { s with returns := s.returns ++ expressions }
  | .returnDistinct expressions =>
    draft.modify fun s => { s with returns := s.returns ++ expressions, distinct := true }
  | .orderBy expression order =>
    draft.modify fun s => { s with orderBy := s.orderBy ++ [⟨expression, order⟩] }
  | .skip rows => draft.modify fun s => { s with skip := some rows }
  | .limit rows => draft.modify fun s => { s with limit := some rows }

/-- The draft after several steps. -/
def run (draft : Draft) (steps : List Step) : Except Fault Draft :=
  steps.foldlM step draft

/-- All statements, the open one last. -/
def statements (draft : Draft) : List Statement :=
  draft.closed ++ draft.current.toList

/-- The finished query, a statement after the other. -/
def query (draft : Draft) : Query :=
  ⟨Text.joined "\n" (draft.statements.map Statement.text), draft.params⟩

end Draft

namespace Step

/-- The expression of a property of an entity. -/
def property (var key : String) : String :=
  var ++ "." ++ quoteName key

/-- Asks of every entry of a bag that the entity has it. -/
def whereProperties (var : String) (properties : Bag) : List Step :=
  properties.map fun entry => .whereCompare (property var entry.1) .equals entry.2 false

/-- Sets every entry of a bag on the entity. -/
def setProperties (var : String) (properties : Bag) : List Step :=
  properties.map fun entry => .set (property var entry.1) entry.2

/-- Sets every entry of a bag on the entity if it is created. -/
def createProperties (var : String) (properties : Bag) : List Step :=
  properties.map fun entry => .onCreateSet (property var entry.1) entry.2

end Step

end GraphMapper.Cypher
