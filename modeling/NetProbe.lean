import NetProbe.Command.Console
import NetProbe.Command.Invocation
import NetProbe.Command.Job
import NetProbe.Command.Switch
import NetProbe.Config.Basic
import NetProbe.Config.Document
import NetProbe.Decimal.Binary
import NetProbe.Decimal.Shortest
import NetProbe.Dns.Exchange
import NetProbe.Dns.Message
import NetProbe.Http.Head
import NetProbe.Http.Request
import NetProbe.Http.Response
import NetProbe.Json.Access
import NetProbe.Json.Basic
import NetProbe.Json.Error
import NetProbe.Json.Reader
import NetProbe.Json.Schema
import NetProbe.Json.Writer
import NetProbe.Kinds
import NetProbe.Main
import NetProbe.Measurement.Basic
import NetProbe.Measurement.Connect
import NetProbe.Measurement.Handshake
import NetProbe.Measurement.Lookup
import NetProbe.Measurement.Transaction
import NetProbe.Net.Domain
import NetProbe.Net.Fault
import NetProbe.Net.Ip
import NetProbe.Net.SystemError
import NetProbe.Net.Text
import NetProbe.Observation
import NetProbe.Operation
import NetProbe.Program.Arguments
import NetProbe.Program.Builder
import NetProbe.Program.Error
import NetProbe.Program.Node
import NetProbe.Program.NodeReader
import NetProbe.Program.Registry
import NetProbe.Program.Standard
import NetProbe.Proofs.Http.Line
import NetProbe.Proofs.Http.Snapshot
import NetProbe.Proofs.Json.Accepted
import NetProbe.Proofs.Json.Nesting
import NetProbe.Proofs.Json.RoundTrip
import NetProbe.Proofs.Json.Schema
import NetProbe.Proofs.Json.Shape
import NetProbe.Proofs.Json.Spans
import NetProbe.Proofs.Json.Tokens
import NetProbe.Proofs.Net.Ip
import NetProbe.Proofs.Operation.Calls
import NetProbe.Proofs.Operation.Confluence
import NetProbe.Proofs.Operation.Courses
import NetProbe.Proofs.Operation.Flow
import NetProbe.Proofs.Operation.Leaves
import NetProbe.Proofs.Operation.Passthrough
import NetProbe.Proofs.Operation.Typing
import NetProbe.Proofs.Pairs
import NetProbe.Proofs.Program.Construction
import NetProbe.Proofs.Program.FirstFault
import NetProbe.Proofs.Program.Pieces
import NetProbe.Proofs.Program.Reencoding
import NetProbe.Proofs.Program.RoundTrip
import NetProbe.Proofs.Program.Typing
import NetProbe.Proofs.Program.Wrapper
import NetProbe.Proofs.Registry.Induction
import NetProbe.Proofs.Registry.Lookup
import NetProbe.Proofs.Report.Connections
import NetProbe.Proofs.Report.Evaluation
import NetProbe.Proofs.Report.Failures
import NetProbe.Proofs.Report.Transactions
import NetProbe.Proofs.Results
import NetProbe.Proofs.Run.Custody
import NetProbe.Proofs.Run.Deeds
import NetProbe.Proofs.Run.History
import NetProbe.Proofs.Run.Outcomes
import NetProbe.Proofs.Run.Records
import NetProbe.Proofs.Run.Scheduler
import NetProbe.Proofs.Run.Scripts
import NetProbe.Proofs.Run.Step
import NetProbe.Proofs.Run.Tally
import NetProbe.Proofs.Run.Termination
import NetProbe.Proofs.Text.Utf8
import NetProbe.Report
import NetProbe.Run.Attempt
import NetProbe.Run.Context
import NetProbe.Run.Detached
import NetProbe.Run.Log
import NetProbe.Run.Schedule
import NetProbe.Run.Script
import NetProbe.Run.Session
import NetProbe.Run.Slot
import NetProbe.Text.Base64
import NetProbe.Text.Blank
import NetProbe.Text.Calendar
import NetProbe.Text.Hex
import NetProbe.Text.Invisible
import NetProbe.Text.Part
import NetProbe.Text.Quoted
import NetProbe.Text.Utf8
import NetProbe.Tls.Certificate
import NetProbe.Tls.Offer
import NetProbe.Tls.Pem
import NetProbe.Tls.ServerName
import NetProbe.Toml.Basic
import NetProbe.Toml.Document
import NetProbe.Toml.Quoted
import NetProbe.Toml.Reader
import NetProbe.Toml.Scalar
import NetProbe.Toml.Writer
import NetProbe.Trouble
import NetProbe.Url.Basic
import NetProbe.Url.Host
import NetProbe.Url.Percent
import NetProbe.Value
import NetProbe.ValueJson
import NetProbe.Proofs.Dns.Message
import NetProbe.Proofs.Dns.Positions
import NetProbe.Proofs.Dns.Consumption
import NetProbe.Proofs.Dns.Response
import NetProbe.Proofs.Http.Heads
import NetProbe.Proofs.Http.Truncation
import NetProbe.Proofs.Net.Text
import NetProbe.Proofs.Text.Parts
import NetProbe.Proofs.Url.HostName
import NetProbe.Proofs.Url.Target
import NetProbe.Proofs.Http.RequestHead
import NetProbe.Proofs.Http.SameRequest
import NetProbe.Proofs.Url.Authority
import NetProbe.Proofs.Url.Library
import NetProbe.Proofs.Dns.Query
import NetProbe.Proofs.Json.Skipping
import NetProbe.Proofs.Json.Verbatim
import NetProbe.Proofs.Json.Members
import NetProbe.Proofs.Json.Layout
import NetProbe.Proofs.Program.WireFormat
import NetProbe.Proofs.Program.Evolution
import NetProbe.Proofs.Run.Sharing
import NetProbe.Proofs.Run.Bookkeeping
import NetProbe.Proofs.Run.Sequence
import NetProbe.Proofs.Run.Lending
import NetProbe.Proofs.Run.FanOut
import NetProbe.Proofs.Run.Packing
import NetProbe.Proofs.Run.Moments
import NetProbe.Proofs.Run.Terms
import NetProbe.Proofs.Operation.Terms
import NetProbe.Proofs.Report.Deadlines
import NetProbe.Proofs.Report.Cancellation
import NetProbe.Proofs.Http.PlainHeads
import NetProbe.Proofs.Http.Chunking
import NetProbe.Proofs.Http.Bounds
import NetProbe.Proofs.Http.HeadLines
import NetProbe.Proofs.Http.Overrides
import NetProbe.Proofs.Dns.Exchange
import NetProbe.Proofs.Net.Domain
import NetProbe.Proofs.Operation.AcceptedNames
import NetProbe.Proofs.Operation.Lookups
import NetProbe.Proofs.Dns.Failures
import NetProbe.Proofs.Run.Completion
import NetProbe.Proofs.Run.Contexts
import NetProbe.Proofs.Run.Families
import NetProbe.Proofs.Operation.Reductions
import NetProbe.Proofs.Operation.Measuring
import NetProbe.Proofs.Program.Flattening
import NetProbe.Proofs.Program.Kinds
import NetProbe.Proofs.Toml.Quoted
import NetProbe.Proofs.Config.Deadlines
