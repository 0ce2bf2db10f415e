import GraphMapper.Binary64
import GraphMapper.Binary64.Shortest
import GraphMapper.Binary64.Text
import GraphMapper.Calendar
import GraphMapper.Calendar.Reader
import GraphMapper.CascadePlan
import GraphMapper.Coercion
import GraphMapper.CommandLine.Help
import GraphMapper.CommandLine.Invocation
import GraphMapper.CommandLine.Options
import GraphMapper.CommandLine.Run
import GraphMapper.CompileError
import GraphMapper.Config
import GraphMapper.Constraints
import GraphMapper.Cypher.Draft
import GraphMapper.Cypher.Filter
import GraphMapper.Cypher.Fragment
import GraphMapper.Cypher.Name
import GraphMapper.Cypher.Pattern
import GraphMapper.Cypher.Statement
import GraphMapper.Defaults
import GraphMapper.Dialogue
import GraphMapper.Hydration
import GraphMapper.Json
import GraphMapper.Json.Document
import GraphMapper.Json.Number
import GraphMapper.Json.Record
import GraphMapper.KeyedList
import GraphMapper.Main
import GraphMapper.Mapper.Batch
import GraphMapper.Mapper.Entities
import GraphMapper.Mapper.Error
import GraphMapper.Mapper.Links
import GraphMapper.Mapper.Preparation
import GraphMapper.Mapper.Request
import GraphMapper.NamedList
import GraphMapper.Node
import GraphMapper.Projection
import GraphMapper.Row
import GraphMapper.Schema.Document
import GraphMapper.Schema.EntityType
import GraphMapper.Schema.Error
import GraphMapper.Schema.Property
import GraphMapper.Schema.Registry
import GraphMapper.Schema.Relationship
import GraphMapper.Script
import GraphMapper.Text.Blank
import GraphMapper.Text.Joined
import GraphMapper.Text.Numeral
import GraphMapper.Text.Printable
import GraphMapper.Text.Quoted
import GraphMapper.Uuid
import GraphMapper.Validation
import GraphMapper.Value
import GraphMapper.Write.Plan
import GraphMapper.Write.Split
import GraphMapper.Proofs.Attempt
import GraphMapper.Proofs.Write.Planning
import GraphMapper.Proofs.Schema.Declarations
import GraphMapper.Proofs.Write.Splitting
import GraphMapper.Proofs.Write.Bags
import GraphMapper.Proofs.Write.Identification
import GraphMapper.Proofs.Cypher.Name
import GraphMapper.Proofs.KeyedList
import GraphMapper.Proofs.Value
import GraphMapper.Proofs.Cypher.Parameters
import GraphMapper.Proofs.Cypher.Scope
import GraphMapper.Proofs.Cypher.Drafting
import GraphMapper.Proofs.Write.Scope
import GraphMapper.Proofs.Projection
import GraphMapper.Proofs.Hydration
import GraphMapper.Proofs.Mapper.Preparing
import GraphMapper.Proofs.Mapper.Preparation
import GraphMapper.Proofs.Write.Places
import GraphMapper.Proofs.Mapper.References
import GraphMapper.Proofs.Cypher.Bindings
import GraphMapper.Proofs.Write.Conservation
import GraphMapper.Proofs.Cypher.Twins
import GraphMapper.Proofs.Coercion
import GraphMapper.Proofs.Mapper.Filling
import GraphMapper.Proofs.Write.Erasure
import GraphMapper.Proofs.Mapper.Agreement
import GraphMapper.Proofs.Mapper.Independence
import GraphMapper.Proofs.Cypher.Meaning
import GraphMapper.Proofs.Mapper.Idempotence
import GraphMapper.Proofs.Uuid
import GraphMapper.Proofs.Mapper.Written
import GraphMapper.Proofs.Schema.Walks
import GraphMapper.Proofs.Cascade.Walks
import GraphMapper.Proofs.Cascade.Rendering
import GraphMapper.Proofs.Cascade.Variables
import GraphMapper.Proofs.Mapper.Batch
import GraphMapper.Proofs.Cypher.Likeness
import GraphMapper.Proofs.Write.Likeness
import GraphMapper.Proofs.Cypher.PathReader
import GraphMapper.Proofs.Cypher.Creation
import GraphMapper.Proofs.Mapper.RoundTrip
import GraphMapper.Proofs.Mapper.Completeness
import GraphMapper.Proofs.CommandLine.DryRun
import GraphMapper.Proofs.Schema.Registration
import GraphMapper.Proofs.Mapper.Requests
import GraphMapper.Proofs.Cypher.Writes
import GraphMapper.Proofs.Write.Entities
import GraphMapper.Proofs.Mapper.Drafts
import GraphMapper.Proofs.Mapper.Keys
import GraphMapper.Proofs.Mapper.Required
import GraphMapper.Proofs.Constraints
import GraphMapper.Proofs.Hydration.Hidden
import GraphMapper.Proofs.Hydration.WellFormed
import GraphMapper.Proofs.Mapper.Reports
import GraphMapper.Proofs.Projection.Unfolding
import GraphMapper.Proofs.Projection.Scope
import GraphMapper.Proofs.Hydration.Depth
import GraphMapper.Proofs.Write.Truncation
import GraphMapper.Proofs.Write.Partition
import GraphMapper.Proofs.Mapper.Protection
import GraphMapper.Proofs.Write.Shorthand
import GraphMapper.Proofs.Defaults
import GraphMapper.Proofs.Coercion.Integer
import GraphMapper.Proofs.Validation
import GraphMapper.Proofs.Hydration.Direction
import GraphMapper.Proofs.Write.Undeclared
import GraphMapper.Proofs.Calendar
import GraphMapper.Proofs.Coercion.RoundTrip
import GraphMapper.Proofs.Hydration.Labels
import GraphMapper.Proofs.Projection.Hidden
import GraphMapper.Proofs.Cypher.Filters
import GraphMapper.Proofs.Cypher.Lexemes
import GraphMapper.Proofs.Cypher.Reading
import GraphMapper.Proofs.Cypher.Legibility
import GraphMapper.Proofs.Projection.Reading
import GraphMapper.Proofs.Mapper.Expressions
import GraphMapper.Proofs.Quoting
