import ServiceKit.Binary64.Text
import ServiceKit.Text.Blank
import ServiceKit.Text.Split
import ServiceKit.Text.Quoted
import ServiceKit.Json.Printer
import ServiceKit.Json.Reader
import ServiceKit.Validation.Walk
import ServiceKit.Record.FromText
import ServiceKit.Record.FromJson
import ServiceKit.Record.FromForm
import ServiceKit.Record.Schema
import ServiceKit.Notification.Fanout
import ServiceKit.Cache
import ServiceKit.Context
import ServiceKit.Paging
import ServiceKit.Service
import ServiceKit.Http.Response
import ServiceKit.Record.Samples
import ServiceKit.Form.Multipart
import ServiceKit.Http.Uri
import ServiceKit.Http.Params
import ServiceKit.Http.Request
import ServiceKit.Http.Writer
import ServiceKit.Testing.Request
import ServiceKit.Testing.Response
import ServiceKit.Net.Address
import ServiceKit.Observe.Metrics
import ServiceKit.Observe.Filter
import ServiceKit.Observe.Telemetry
import ServiceKit.Config.Setting
import ServiceKit.Config.Variables
import ServiceKit.Config.DotEnv
import ServiceKit.Config.Document
import ServiceKit.Config.File
import ServiceKit.Import.Csv
import ServiceKit.Import.Row
import ServiceKit.Import.Archive
import ServiceKit.Import.Markup
import ServiceKit.Import.Workbook
import ServiceKit.Import.Job
import ServiceKit.Import.Errand
import ServiceKit.Import.Rehearsal
import ServiceKit.Server.Failure
import ServiceKit.Server.Handler
import ServiceKit.Server.Route
import ServiceKit.Server.App
import ServiceKit.Server.Rehearsal
import ServiceKit.Server.Listener
import ServiceKit.Server.Shutdown
import ServiceKit.Server.Serving
import ServiceKit.Config.Loader
import ServiceKit.Rehearsal.Redact
import ServiceKit.Rehearsal.Script
import ServiceKit.Text.Case
import ServiceKit.Derive.Lexer
import ServiceKit.Derive.Naming
import ServiceKit.Derive.Extent
import ServiceKit.Derive.Syntax
import ServiceKit.Derive.Attribute
import ServiceKit.Derive.Declaration
import ServiceKit.Derive.Expansion
import ServiceKit.Server.Traffic
import ServiceKit.Server.Race
import ServiceKit.Server.Journey
import ServiceKit.Proofs.Import.Transactions
import ServiceKit.Proofs.Import.Progress
import ServiceKit.Proofs.Import.Agreement
import ServiceKit.Proofs.Import.Loss
import ServiceKit.Proofs.Import.Refusal
import ServiceKit.Proofs.Import.Untouched
import ServiceKit.Proofs.Server.Clock
import ServiceKit.Proofs.Validation.Exactness
import ServiceKit.Context.History
import ServiceKit.Proofs.Context.Cancellation
import ServiceKit.Proofs.Server.Lookup
import ServiceKit.Proofs.Server.Traffic
import ServiceKit.Validation.Path
import ServiceKit.Record.Conformance
import ServiceKit.Proofs.Validation.Paths
import ServiceKit.Notification.Dispatch
import ServiceKit.Proofs.Notification.Delivery
import ServiceKit.Proofs.Json.Printing
import ServiceKit.Proofs.Server.Trace
import ServiceKit.Proofs.Server.Stages
import ServiceKit.Proofs.Server.Expiry
import ServiceKit.Proofs.Text.Bytes
import ServiceKit.Proofs.Http.Headers
import ServiceKit.Proofs.Server.Nesting
import ServiceKit.Proofs.Server.Stamps
import ServiceKit.Proofs.Server.Retrace
import ServiceKit.Proofs.Server.Drain
import ServiceKit.Proofs.Text.Utf8
import ServiceKit.Proofs.Form.Urlencoded
import ServiceKit.Proofs.Keyed
import ServiceKit.Proofs.Http.Detour
import ServiceKit.Proofs.Outcome
import ServiceKit.Proofs.Http.Checking
import ServiceKit.Proofs.Config.Layers
import ServiceKit.Proofs.Notification.Markup
import ServiceKit.Cache.History
import ServiceKit.Proofs.Cache.Ideal
import ServiceKit.Proofs.Validation.Modes
import ServiceKit.Proofs.Validation.Prefixes
import ServiceKit.Proofs.Validation.Nullness
import ServiceKit.Proofs.Server.Patterns
import ServiceKit.Import.Reader
import ServiceKit.Proofs.Import.Rows
import ServiceKit.Proofs.Import.Layout
import ServiceKit.Proofs.Import.Lines
import ServiceKit.Proofs.Server.Statuses
import ServiceKit.Proofs.Validation.Addresses
import ServiceKit.Proofs.Server.Bodies
import ServiceKit.Context.Waiting
import ServiceKit.Proofs.Context.Deadlines
import ServiceKit.Proofs.Http.MediaTypes
import ServiceKit.Proofs.Form.Parts
import ServiceKit.Proofs.Testing.Forms
import ServiceKit.Http.Writer.History
import ServiceKit.Proofs.Http.Writes
import ServiceKit.Proofs.Testing.Calls
import ServiceKit.Proofs.Binary64.Shortest
import ServiceKit.Proofs.Binary64.Rounding
import ServiceKit.Proofs.Json.Readings
import ServiceKit.Proofs.Json.Numerals
import ServiceKit.Proofs.Json.Numbers
import ServiceKit.Proofs.Json.Values
import ServiceKit.Proofs.Testing.Envelopes
import ServiceKit.Proofs.Derive.Names
import ServiceKit.Proofs.Derive.Extents
import ServiceKit.Proofs.Derive.Entries
import ServiceKit.Proofs.Derive.Rules
import ServiceKit.Proofs.Derive.Grouping
