import SpoolTag.Bitmap
import SpoolTag.Bus.Adapter
import SpoolTag.Bus.Choice
import SpoolTag.Bus.Dialog
import SpoolTag.Bus.Faulty
import SpoolTag.Bus.Memory
import SpoolTag.Catalog
import SpoolTag.CommandLine.Arguments
import SpoolTag.CommandLine.Program
import SpoolTag.Config
import SpoolTag.Daemon.Address
import SpoolTag.Daemon.Api
import SpoolTag.Daemon.Basic
import SpoolTag.Daemon.Change
import SpoolTag.Daemon.Channel
import SpoolTag.Daemon.Clock
import SpoolTag.Daemon.Connection
import SpoolTag.Daemon.Server
import SpoolTag.Daemon.Session
import SpoolTag.Daemon.Startup
import SpoolTag.Daemon.Watcher
import SpoolTag.Fault
import SpoolTag.Fields
import SpoolTag.Http.Exchange
import SpoolTag.Http.MediaType
import SpoolTag.Json.Document
import SpoolTag.Json.Event
import SpoolTag.Json.Number
import SpoolTag.Json.Position
import SpoolTag.Json.ReadError
import SpoolTag.Json.Token
import SpoolTag.Log
import SpoolTag.Main
import SpoolTag.Manager.Records
import SpoolTag.Manager.Registers
import SpoolTag.Notice
import SpoolTag.Number.Binary
import SpoolTag.Number.Numeral
import SpoolTag.Number.Shortest
import SpoolTag.Number.Single
import SpoolTag.Path
import SpoolTag.Proofs.Bus.Asking
import SpoolTag.Proofs.Bus.FailFast
import SpoolTag.Proofs.Bus.Fallible
import SpoolTag.Proofs.Bus.History
import SpoolTag.Proofs.Bus.Kernel
import SpoolTag.Proofs.Bus.Memory
import SpoolTag.Proofs.Bus.Plans
import SpoolTag.Proofs.Bus.Queries
import SpoolTag.Proofs.Bus.Registers
import SpoolTag.Proofs.Bus.Reporting
import SpoolTag.Proofs.Bus.Staging
import SpoolTag.Proofs.Bus.Transfers
import SpoolTag.Proofs.Catalog.Acceptance
import SpoolTag.Proofs.Catalog.Layout
import SpoolTag.Proofs.Catalog.Marks
import SpoolTag.Proofs.Daemon.Answering
import SpoolTag.Proofs.Daemon.Connections
import SpoolTag.Proofs.Daemon.Feed
import SpoolTag.Proofs.Daemon.Forwarding
import SpoolTag.Proofs.Daemon.Outages
import SpoolTag.Proofs.Daemon.Polling
import SpoolTag.Proofs.Daemon.Publishing
import SpoolTag.Proofs.Daemon.Remembering
import SpoolTag.Proofs.Daemon.Reposting
import SpoolTag.Proofs.Daemon.Requests
import SpoolTag.Proofs.Daemon.Serial
import SpoolTag.Proofs.Daemon.Supplying
import SpoolTag.Proofs.Daemon.Tasks
import SpoolTag.Proofs.Daemon.Watching
import SpoolTag.Proofs.Json.Accuracy
import SpoolTag.Proofs.Json.Documents
import SpoolTag.Proofs.Json.Gathering
import SpoolTag.Proofs.Json.Narrowing
import SpoolTag.Proofs.Json.Numbers
import SpoolTag.Proofs.Json.Range
import SpoolTag.Proofs.Json.Scalars
import SpoolTag.Proofs.Json.Scaling
import SpoolTag.Proofs.Json.Trees
import SpoolTag.Proofs.Manager.Atomicity
import SpoolTag.Proofs.Manager.Flags
import SpoolTag.Proofs.Manager.Interchange
import SpoolTag.Proofs.Manager.Looking
import SpoolTag.Proofs.Manager.Neighbours
import SpoolTag.Proofs.Manager.Preparation
import SpoolTag.Proofs.Manager.ReadBack
import SpoolTag.Proofs.Manager.ReadProtocol
import SpoolTag.Proofs.Manager.Rewriting
import SpoolTag.Proofs.Manager.RoundTrip
import SpoolTag.Proofs.Manager.Stages
import SpoolTag.Proofs.Manager.Texts
import SpoolTag.Proofs.Manager.Uses
import SpoolTag.Proofs.Manager.WriteBack
import SpoolTag.Proofs.Manager.WritePlan
import SpoolTag.Proofs.Manager.WriteProtocol
import SpoolTag.Proofs.Manager.WriteSteps
import SpoolTag.Proofs.Number.Bracket
import SpoolTag.Proofs.Number.Digits
import SpoolTag.Proofs.Number.Nearest
import SpoolTag.Proofs.Number.Rounding
import SpoolTag.Proofs.Number.Shortest
import SpoolTag.Proofs.Record.Extent
import SpoolTag.Proofs.Record.Finite
import SpoolTag.Proofs.Record.Meaning
import SpoolTag.Proofs.Record.Members
import SpoolTag.Proofs.Record.Objects
import SpoolTag.Proofs.Record.Occurrences
import SpoolTag.Proofs.Record.Presence
import SpoolTag.Proofs.Record.RoundTrip
import SpoolTag.Proofs.Text.Cutting
import SpoolTag.Proofs.Text.Utf8
import SpoolTag.Proofs.Value.Codec
import SpoolTag.Proofs.Value.Coercion
import SpoolTag.Proofs.Value.Documents
import SpoolTag.Proofs.Value.FixedWidth
import SpoolTag.Proofs.Value.Integers
import SpoolTag.Proofs.Value.Spelling
import SpoolTag.Proofs.Value.Wholes
import SpoolTag.Record
import SpoolTag.Record.Reading
import SpoolTag.Register
import SpoolTag.Report
import SpoolTag.SystemError
import SpoolTag.Text.Hex
import SpoolTag.Text.Invisible
import SpoolTag.Text.Quoted
import SpoolTag.Text.Utf8
import SpoolTag.Toml.Document
import SpoolTag.Toml.Scalar
import SpoolTag.Toml.Table
import SpoolTag.Value
import SpoolTag.Value.Reading
import SpoolTag.Value.Wire
