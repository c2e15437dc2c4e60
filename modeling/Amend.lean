import Amend.AutoColumn.Basic
import Amend.AutoColumn.Columns
import Amend.AutoColumn.Payload
import Amend.Binary64.Basic
import Amend.Binary64.Shortest
import Amend.Binding.Argument
import Amend.Binding.Binder
import Amend.Binding.Variables
import Amend.Check.Constraint
import Amend.Check.Format.Date
import Amend.Check.Format.Email
import Amend.Check.Format.Uuid
import Amend.Check.Validator
import Amend.Config.AutoColumn
import Amend.Config.Basic
import Amend.Config.Text
import Amend.Database.Address
import Amend.Database.Basic
import Amend.Database.Pool
import Amend.Database.Rehearsal
import Amend.Digest.Sha256
import Amend.Digest.Signature
import Amend.Digest.Text
import Amend.Engine.Basic
import Amend.Engine.Cache
import Amend.Engine.Retry
import Amend.Engine.Role
import Amend.Engine.Run
import Amend.Engine.SharedCache
import Amend.Engine.Statement
import Amend.Engine.Task
import Amend.Failure
import Amend.Identity
import Amend.Json.Basic
import Amend.Json.Direct
import Amend.Json.Number
import Amend.Json.Parser
import Amend.Json.Printer
import Amend.Json.Record
import Amend.Json.Scanner
import Amend.Pattern.Basic
import Amend.Pattern.Parser
import Amend.Plan.Basic
import Amend.Plan.Compile
import Amend.Plan.Decode
import Amend.Plan.Encode
import Amend.Schema.Basic
import Amend.Schema.Judge
import Amend.Script.Document
import Amend.Script.Hook
import Amend.Script.Samples
import Amend.Script.Shelf
import Amend.Script.Value
import Amend.Service.Access
import Amend.Service.BearerToken
import Amend.Service.Claims
import Amend.Service.Http
import Amend.Service.MediaType
import Amend.Service.Refusal
import Amend.Service.Request
import Amend.Sql.Parameter
import Amend.Sql.Quote
import Amend.Sql.Render
import Amend.Sql.Statement
import Amend.Sql.Text
import Amend.Sql.Token
import Amend.Text.Case
import Amend.Text.CaseSpans
import Amend.Text.Classes
import Amend.Text.FoldSpans
import Amend.Text.Naming
import Amend.Text.Span
import Amend.Text.WordSpans
import Amend.Toml.Basic
import Amend.Toml.Parser
import Amend.Toml.Scalar
import Amend.Toml.Scanner
import Amend.Toml.Table
import Amend.Proofs.Sql.Lexer
import Amend.Proofs.Sql.Word
import Amend.Proofs.Sql.Fragment
import Amend.Proofs.Sql.Build
import Amend.Proofs.Sql.Order
import Amend.Proofs.Sql.Reads
import Amend.Proofs.Sql.Scope
import Amend.Proofs.Sql.Register
import Amend.Proofs.Sql.Emission
import Amend.Proofs.Sql.Closed
import Amend.Proofs.Sql.Numbering
import Amend.Proofs.Engine.Task
import Amend.Proofs.Engine.Alike
import Amend.Proofs.Engine.Session
import Amend.Proofs.Engine.Transparent
import Amend.Proofs.AutoColumn.Walk
import Amend.Proofs.AutoColumn.Pass
import Amend.Proofs.AutoColumn.Traversal
import Amend.Proofs.Sql.Records
import Amend.Proofs.AutoColumn.Columns
import Amend.Proofs.Binding.Binder
import Amend.Proofs.Binding.Payload
import Amend.Proofs.Binding.Positional
import Amend.Proofs.AutoColumn.Placement
import Amend.Proofs.Binding.Slot
import Amend.Proofs.Engine.Origin
import Amend.Proofs.Engine.Journal
import Amend.Proofs.Engine.Isolation
import Amend.Proofs.Engine.SharedCache
import Amend.Proofs.Json.Tokens
import Amend.Proofs.Json.Reader
import Amend.Proofs.Binding.Accepts
import Amend.Proofs.Sql.Item
import Amend.Proofs.Sql.Formula
import Amend.Proofs.Sql.Meaning
import Amend.Proofs.Sql.Narrowing
import Amend.Proofs.Sql.References
import Amend.Proofs.Sql.PathLiteral
import Amend.Proofs.Sql.Casts
import Amend.Proofs.Sql.Arrays
import Amend.Proofs.Sql.Returned
import Amend.Proofs.Json.Members
import Amend.Proofs.Json.Written
import Amend.Proofs.Json.RoundTrip
import Amend.Proofs.Json.Record
import Amend.Proofs.Plan.Parts
import Amend.Proofs.Plan.RoundTrip
import Amend.Proofs.Sql.Aliases
import Amend.Proofs.AutoColumn.Stamps
import Amend.Proofs.AutoColumn.Firing
import Amend.Proofs.AutoColumn.Marks
import Amend.Proofs.Sql.Assigned
import Amend.Proofs.AutoColumn.Injection
import Amend.Proofs.AutoColumn.MemberNames
import Amend.Proofs.Json.Along
import Amend.Proofs.AutoColumn.Paths
import Amend.Proofs.AutoColumn.Agreement
import Amend.Proofs.Binary64.Nearest
import Amend.Proofs.Binary64.Shortest
import Amend.Proofs.Binary64.Message
import Amend.Proofs.Script.Tables
import Amend.Proofs.Script.RoundTrip
import Amend.Proofs.Script.Sequences
import Amend.Proofs.Script.Keys
import Amend.Proofs.Script.Entries
import Amend.Proofs.Json.Grammar
import Amend.Proofs.Json.Decoding
import Amend.Proofs.Binding.Dispatch
import Amend.Proofs.Binding.Variables
import Amend.Proofs.Engine.Judged
import Amend.Proofs.AutoColumn.Renewal
import Amend.Proofs.Binding.Caller
import Amend.Proofs.Engine.Caller
import Amend.Proofs.AutoColumn.Repeatable
import Amend.Proofs.Binding.Influence
import Amend.Proofs.Check.Apart
import Amend.Proofs.Plan.Document
import Amend.Proofs.Plan.Settled
import Amend.Proofs.Sql.Literals
import Amend.Proofs.Engine.Retry
import Amend.Proofs.Engine.Roles
import Amend.Proofs.Pattern.Matching
import Amend.Proofs.Check.Pattern
import Amend.Proofs.Check.Address
import Amend.Proofs.Script.Ending
