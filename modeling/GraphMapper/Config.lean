import GraphMapper.CascadePlan
import GraphMapper.Json.Document
import GraphMapper.Json.Record
import GraphMapper.Projection
import GraphMapper.Write.Plan

/-!
# Configuration

The limits of depth, what is done beyond the limit of a write, and whether the database has
existence constraints. A configuration is read from a JSON record; a field that is not given has its
default, and whatever stands under another name is skipped, so long as it follows the grammar.
-/

namespace GraphMapper

/-- The settings of a mapper. -/
structure Config where
  maxEagerDepth : Nat := defaultEagerDepth
  maxWriteDepth : Nat := defaultWriteDepth
  maxCascadeDepth : Nat := defaultCascadeDepth
  writeOverflow : Overflow := .truncate
  enterprise : Bool := false
  deriving DecidableEq

namespace Config

/-- The names of the fields, in the order of their positions. -/
def fieldNames : List String :=
  ["max_eager_depth", "max_write_depth", "max_cascade_depth", "write_overflow", "enterprise"]

/-- The greatest limit of depth. -/
def maxDepth : Nat := UInt64.size - 1

/-- The slots of a configuration. Every key has to be a string, but only the values that are asked
for need to have a meaning. -/
def slots? : Json.Document → Option (List (Option Json.Document))
  | .object entries => do
    let named ← entries.mapM fun entry => entry.1.map fun name => (name, entry.2)
    Json.slotsByName? fieldNames named
  | .array items => Json.slotsByPosition? fieldNames items
  | _ => none

/-- The value in a slot. -/
def slotValue? : Option Json.Document → Option (Option Json)
  | none => some none
  | some document => document.json?.map some

/-- Reads a configuration. -/
def ofText? (text : String) : Option Config := do
  match ← (← slots? (← Json.Document.ofText? text)).mapM slotValue? with
  | [eager, write, cascade, overflow, enterprise] =>
    return {
      maxEagerDepth := ← Json.field? (Json.natural? maxDepth) defaultEagerDepth eager
      maxWriteDepth := ← Json.field? (Json.natural? maxDepth) defaultWriteDepth write
      maxCascadeDepth := ← Json.field? (Json.natural? maxDepth) defaultCascadeDepth cascade
      writeOverflow := ← Json.field? (Json.choice? Overflow.ofName?) .truncate overflow
      enterprise := ← Json.field? Json.bool? false enterprise }
  | _ => none

/-- The settings as a document that `ofText?` reads. -/
def json (config : Config) : Json := .object [
  ("max_eager_depth", .integer config.maxEagerDepth),
  ("max_write_depth", .integer config.maxWriteDepth),
  ("max_cascade_depth", .integer config.maxCascadeDepth),
  ("write_overflow", .string config.writeOverflow.name),
  ("enterprise", .bool config.enterprise)]

/-- The limit of depth for writes. -/
def writeLimit (config : Config) : WriteLimit := ⟨config.maxWriteDepth, config.writeOverflow⟩

end Config

end GraphMapper
