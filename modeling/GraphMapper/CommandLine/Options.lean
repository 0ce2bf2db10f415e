import GraphMapper.Coercion
import GraphMapper.Write.Split

/-!
# Commands and options

The commands of the program and the options they take. Three options belong to the program as a
whole and may stand before the command or behind it; every other option stands behind the command.
An option is given once at most in each of the two places.
-/

namespace GraphMapper.CommandLine

/-- The commands. -/
inductive CommandName where
  | eager
  | create
  | merge
  | delete
  | deleteAll
  | installSchema
  | dropSchema
  deriving DecidableEq

namespace CommandName

/-- All commands. -/
def all : List CommandName :=
  [.eager, .create, .merge, .delete, .deleteAll, .installSchema, .dropSchema]

/-- The word for a command. -/
def word : CommandName → String
  | .eager => "eager"
  | .create => "create"
  | .merge => "merge"
  | .delete => "delete"
  | .deleteAll => "delete-all"
  | .installSchema => "schema-install"
  | .dropSchema => "schema-drop"

/-- The command for a word. -/
def ofWord? (word : String) : Option CommandName :=
  all.find? fun command => command.word = word

end CommandName

/-- The options that take a value. -/
inductive OptionName where
  | schema
  | config
  | format
  | model
  | payload
  | identity
  | depth
  deriving DecidableEq

namespace OptionName

/-- All options. -/
def all : List OptionName :=
  [.model, .schema, .config, .payload, .identity, .depth, .format]

/-- The option behind its two hyphens. -/
def word : OptionName → String
  | .schema => "schema"
  | .config => "config"
  | .format => "format"
  | .model => "model"
  | .payload => "props-json"
  | .identity => "id"
  | .depth => "depth"

/-- The option for a word. -/
def ofWord? (word : String) : Option OptionName :=
  all.find? fun name => name.word = word

/-- The options a command takes besides those of the whole program. -/
def ownOf : CommandName → List OptionName
  | .eager | .deleteAll => [.model]
  | .create | .merge => [.model, .payload]
  | .delete => [.model, .identity, .depth]
  | .installSchema | .dropSchema => []

/-- Whether an option may stand before the command, if there is none yet, or behind it. -/
def isAllowed (command : Option CommandName) (name : OptionName) : Bool :=
  [schema, config, format].contains name ||
    (command.map ownOf).any fun own => own.contains name

end OptionName

/-- How queries are printed. -/
inductive OutputFormat where
  | json
  | cypher
  deriving DecidableEq

/-- The format of that name. -/
def OutputFormat.ofName? : String → Option OutputFormat
  | "json" => some .json
  | "cypher" => some .cypher
  | _ => none

/-- The greatest depth. -/
def maxDepth : Nat := UInt64.size - 1

/-- Reads a depth, which may have a plus sign. -/
def depth? (s : String) : Option Nat :=
  let digits := match s.toList with
    | '+' :: rest => rest
    | cs => cs
  (Text.natural? digits).filter fun n => n ≤ maxDepth

/-- The values of the options in one place. -/
structure Options where
  schema : Option String := none
  config : Option String := none
  format : Option OutputFormat := none
  model : Option String := none
  payload : Option String := none
  identity : Option Identity := none
  depth : Option Nat := none

namespace Options

/-- Stores the value of an option that has none yet. -/
def store {α : Type} (slot : Option α) (value : Option α) : Option (Option α) :=
  if slot.isNone ∧ value.isSome then some value else none

/-- A path, which is not empty. -/
def path? (s : String) : Option String :=
  if s = "" then none else some s

/-- Adds an option, unless it was given before or its value is malformed. -/
def add? (options : Options) (name : OptionName) (value : String) : Option Options :=
  match name with
  | .schema => (store options.schema (path? value)).map fun slot => { options with schema := slot }
  | .config => (store options.config (path? value)).map fun slot => { options with config := slot }
  | .format =>
    (store options.format (OutputFormat.ofName? value)).map fun slot =>
      { options with format := slot }
  | .model => (store options.model (some value)).map fun slot => { options with model := slot }
  | .payload =>
    (store options.payload (some value)).map fun slot => { options with payload := slot }
  | .identity =>
    (store options.identity (Coercion.readInt? value)).map fun slot =>
      { options with identity := slot }
  | .depth => (store options.depth (depth? value)).map fun slot => { options with depth := slot }

end Options

end GraphMapper.CommandLine
