import RecordMapper.Bench.Command
import RecordMapper.Bench.Engine
import RecordMapper.Bench.Reply
import RecordMapper.Bench.World
import RecordMapper.Calendar.Date
import RecordMapper.Calendar.Timestamp
import RecordMapper.Catalogue
import RecordMapper.Engine.Config
import RecordMapper.Engine.Host
import RecordMapper.Failure
import RecordMapper.Field.Datum
import RecordMapper.Field.Expression
import RecordMapper.Field.Type
import RecordMapper.Mapping.Path
import RecordMapper.Mapping.Reading
import RecordMapper.Mapping.Writing
import RecordMapper.Number.Binary
import RecordMapper.Number.Integer
import RecordMapper.Number.Reading
import RecordMapper.Number.Shortest
import RecordMapper.Pipeline.Event
import RecordMapper.Pipeline.Phase
import RecordMapper.Pipeline.Workflow
import RecordMapper.Query.Binding
import RecordMapper.Query.Compiler
import RecordMapper.Query.Condition
import RecordMapper.Query.Like
import RecordMapper.Query.MethodName
import RecordMapper.Query.SortKey
import RecordMapper.Query.Statement
import RecordMapper.Record
import RecordMapper.Repository.Definition
import RecordMapper.Repository.Invocation
import RecordMapper.Repository.Result
import RecordMapper.Repository.Shape
import RecordMapper.Schema.Declaration
import RecordMapper.Schema.Descriptor
import RecordMapper.Schema.Entity
import RecordMapper.Schema.Form
import RecordMapper.Schema.Registry
import RecordMapper.Store.Manager
import RecordMapper.Store.Memory
import RecordMapper.Store.Qualifier
import RecordMapper.Store.Session
import RecordMapper.Template.Async
import RecordMapper.Template.Entity
import RecordMapper.Text.Blank
import RecordMapper.Text.Description
import RecordMapper.Text.Invisible
import RecordMapper.Text.Letter
import RecordMapper.Text.Regular
import RecordMapper.Text.Split
import RecordMapper.Value
import RecordMapper.Value.Display
import RecordMapper.Value.Hash
import RecordMapper.Value.Order
import RecordMapper.Value.Sorting
import RecordMapper.Proofs.Schema.Described
import RecordMapper.Proofs.Schema.Describable
import RecordMapper.Proofs.Schema.Cached
import RecordMapper.Proofs.Mapping.Written
import RecordMapper.Proofs.Mapping.Populated
import RecordMapper.Proofs.Mapping.RoundTrip
import RecordMapper.Proofs.Query.Binding
import RecordMapper.Proofs.Repository.Definition
import RecordMapper.Proofs.Store.Memory
import RecordMapper.Proofs.Store.Session
import RecordMapper.Proofs.Mapping.Search
import RecordMapper.Proofs.Template.Saving
import RecordMapper.Proofs.Query.Tokens
import RecordMapper.Proofs.Repository.Finder
import RecordMapper.Proofs.Query.Scanning
import RecordMapper.Proofs.Query.Word
import RecordMapper.Proofs.Query.MethodText
import RecordMapper.Proofs.Query.Parsing
import RecordMapper.Proofs.Value.Comparing
import RecordMapper.Proofs.Value.Order
import RecordMapper.Proofs.Value.Integer
import RecordMapper.Proofs.Mapping.Absent
import RecordMapper.Proofs.Store.Keyed
import RecordMapper.Proofs.Pipeline.Passing
import RecordMapper.Proofs.Template.History
import RecordMapper.Proofs.Template.Mirrored
import RecordMapper.Proofs.Template.Lookup
import RecordMapper.Proofs.Store.Request
import RecordMapper.Proofs.Store.Prompt
import RecordMapper.Proofs.Store.Distinct
import RecordMapper.Proofs.Store.TimeToLive
import RecordMapper.Proofs.Mapping.Flattened
import RecordMapper.Proofs.Mapping.Dependence
import RecordMapper.Proofs.Mapping.Paths
import RecordMapper.Proofs.Template.Flight
import RecordMapper.Proofs.Pipeline.Steady
import RecordMapper.Proofs.Template.Batch
import RecordMapper.Proofs.Pipeline.Schedule
import RecordMapper.Proofs.Query.Compiling
import RecordMapper.Proofs.Engine.Isolation
import RecordMapper.Proofs.Repository.Forms
import RecordMapper.Proofs.Query.Arguments
import RecordMapper.Proofs.Schema.Declared
import RecordMapper.Proofs.Mapping.Layout
import RecordMapper.Proofs.Repository.Shapes
import RecordMapper.Proofs.Value.Parts
import RecordMapper.Proofs.Field.Collecting
import RecordMapper.Proofs.Field.Contents
import RecordMapper.Proofs.Field.Order
import RecordMapper.Proofs.Field.Reading
import RecordMapper.Proofs.Field.Restoring
import RecordMapper.Proofs.Store.Selecting
import RecordMapper.Proofs.Text.Regular
import RecordMapper.Proofs.Query.Like
import RecordMapper.Proofs.Query.Grammar
import RecordMapper.Proofs.Text.Slice
import RecordMapper.Proofs.Query.Splitting
import RecordMapper.Proofs.Mapping.Naming
import RecordMapper.Proofs.Query.Coherence
import RecordMapper.Proofs.Record.History
import RecordMapper.Proofs.Value.Hashing
import RecordMapper.Proofs.Record.Equality
