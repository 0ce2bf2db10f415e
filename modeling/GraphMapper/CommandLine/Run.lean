import GraphMapper.CommandLine.Invocation
import GraphMapper.Mapper.Batch
import GraphMapper.Mapper.Entities
import GraphMapper.Schema.Document

/-!
# Running the command line

An invocation names a schema and what to do with it; the result is the queries that a mapper would
send, printed. Files are given as a function from paths to texts, the identifiers that defaults need
as a supply, and what is said of malformed texts as a diagnosis.
-/

namespace GraphMapper.CommandLine

open Cypher (Query)

/-- Why an invocation fails. -/
inductive Failure where
  | schemaMissing
  | schemaUnreadable (path : String)
  | schemaInvalid (path : String)
  | configUnreadable (path : String)
  | configInvalid (path : String)
  | payloadMalformed
  | payloadNoObject (found : String)
  | mapper (cause : MapperError)

/-- The text of a failure. -/
def Failure.message (diagnosis : Diagnosis) : Failure → String
  | .schemaMissing => "--schema is required"
  | .schemaUnreadable path => "failed to read schema file " ++ path
  | .schemaInvalid path => "invalid schema in " ++ path
  | .configUnreadable path => "failed to read config file " ++ path
  | .configInvalid path => "invalid config in " ++ path
  | .payloadMalformed => "props_json must be a JSON object"
  | .payloadNoObject found => "props_json must be a JSON object, got " ++ found
  | .mapper cause => cause.message diagnosis

/-- The texts of the files that can be read, by path. -/
abbrev Files : Type := String → Option String

/-- A path without the steps that stay where they are. Its last step is kept, for at the end it asks
for a directory. -/
def plainPath (path : String) : String :=
  if path.startsWith "/" then path
  else
    let steps := path.splitOn "/"
    Text.joined "/" (steps.dropLast.filter (fun step => step ≠ "" ∧ step ≠ ".")
      ++ steps.getLast?.toList)

/-- The files of a directory, by their paths in it. -/
def Files.ofDirectory (files : KeyedList String) : Files := fun path =>
  KeyedList.get? files (plainPath path)

/-- The registry of a schema file. -/
def loadRegistry (files : Files) : Option String → Except Failure Registry
  | none => .error .schemaMissing
  | some path =>
    match files path with
    | none => .error (.schemaUnreadable path)
    | some text =>
      ((SchemaDocument.ofText text).bind SchemaDocument.toRegistry).mapError
        fun _ => .schemaInvalid path

/-- The settings of a configuration file, or the default ones. -/
def loadConfig (files : Files) : Option String → Except Failure Config
  | none => .ok {}
  | some path =>
    match files path with
    | none => .error (.configUnreadable path)
    | some text =>
      match Config.ofText? text with
      | some config => .ok config
      | none => .error (.configInvalid path)

/-- The payload in a text. -/
def readPayload (text : String) : Except Failure Bag :=
  match (Json.ofText? text).map Value.ofJson with
  | some (.map entries) => .ok entries
  | some other => .error (.payloadNoObject other.typeName)
  | none => .error .payloadMalformed

/-- The query that writes a payload, of which only the root is prepared. -/
def writeQuery (mapper : Mapper) (supply : Supply) (mode : WriteMode) (name payload : String) :
    Except Failure Query := do
  let model ← (mapper.model name).mapError .mapper
  let bag ← readPayload payload
  let prepared ← ((prepareProperties model bag).run supply).1.mapError .mapper
  (mapper.writeQuery mode model prepared).mapError .mapper

/-- The queries that a command comes to. -/
def Command.queries (mapper : Mapper) (supply : Supply) : Command → Except Failure (List Query)
  | .eager name => do
    let model ← (mapper.model name).mapError .mapper
    let projection ← (Projection.ofModel mapper.registry
      (Projection.levels mapper.config.maxEagerDepth 1) rootVar (some model)).mapError
        fun cause => .mapper (.compile cause)
    return [⟨projection.text, []⟩]
  | .write mode name payload => do return [← writeQuery mapper supply mode name payload]
  | .delete name identity depth => do
    let model ← (mapper.model name).mapError .mapper
    let query ← (mapper.deleteQuery (depth.getD mapper.config.maxCascadeDepth) model
      identity).mapError .mapper
    return [query]
  | .deleteAll name => do return [← (mapper.deleteAllQuery name).mapError .mapper]
  | .installSchema => .ok (installQueries mapper.registry mapper.config.enterprise)
  | .dropSchema => .ok (dropQueries mapper.registry mapper.config.enterprise)

/-- The queries that an invocation comes to. -/
def Invocation.queries (files : Files) (supply : Supply) (invocation : Invocation) :
    Except Failure (List Query) := do
  let registry ← loadRegistry files invocation.schema
  let config ← loadConfig files invocation.config
  invocation.command.queries ⟨registry, config⟩ supply

/-- A query as it is printed, with the end of its last line. -/
def OutputFormat.print (query : Query) : OutputFormat → String
  | .json =>
    (Json.object [("params", query.params.json), ("query", .string query.text)]).text ++ "\n"
  | .cypher => query.text ++ ";\n"

/-- What a run comes to: its exit code and what it prints, on success and on failure. -/
structure Report where
  code : UInt8
  output : String := ""
  error : String := ""

/-- Carries out a command line. -/
def run (diagnosis : Diagnosis) (files : Files) (supply : Supply) (arguments : List String) :
    Report :=
  match Invocation.ofArguments arguments with
  | .error (.text text) => { code := 0, output := text }
  | .error .usage => { code := 2, error := programHelp }
  | .ok invocation =>
    match invocation.queries files supply with
    | .error failure => { code := 1, error := "Error: " ++ failure.message diagnosis ++ "\n" }
    | .ok queries =>
      { code := 0, output := String.join (queries.map fun query => invocation.format.print query) }

end GraphMapper.CommandLine
