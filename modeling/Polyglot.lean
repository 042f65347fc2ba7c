import Polyglot.Text.Blank
import Polyglot.Text.Bytes
import Polyglot.Text.Lines
import Polyglot.Scan.Lexeme
import Polyglot.Scan.Call
import Polyglot.Scan.Rewriting
import Polyglot.Scan.Imports
import Polyglot.Scan.Wrapping
import Polyglot.Json.Basic
import Polyglot.Json.Parser
import Polyglot.Json.Printer
import Polyglot.Text.Duration
import Polyglot.Failure
import Polyglot.Channel.Link
import Polyglot.Input.Broker
import Polyglot.Input.Hook
import Polyglot.Run.Result
import Polyglot.Run.Aggregator
import Polyglot.Run.Compilation
import Polyglot.Wire.Message
import Polyglot.Wire.Record
import Polyglot.Wire.Codec
import Polyglot.Language
import Polyglot.Scan.Submission
import Polyglot.Text.Quoted
import Polyglot.Number.Double
import Polyglot.Number.Shortest
import Polyglot.Toml.Value
import Polyglot.Toml.Lexical
import Polyglot.Toml.Document
import Polyglot.Config.Setting
import Polyglot.Config.Path
import Polyglot.Config.Basic
import Polyglot.Config.Validation
import Polyglot.Config.Reader
import Polyglot.Config.Example
import Polyglot.Config.Standard
import Polyglot.Sandbox.Bootstrap
import Polyglot.Worker.Bootstrap
import Polyglot.Channel.Lock
import Polyglot.Sandbox.Executor
import Polyglot.Worker.Handle
import Polyglot.Worker.Registry
import Polyglot.Run.Purpose
import Polyglot.Worker.Executor
import Polyglot.Toolchain.Executor
import Polyglot.Compile.Executor
import Polyglot.Script.Player
import Polyglot.Host.Basic
import Polyglot.Host.Backend
import Polyglot.Host.Executor
import Polyglot.Facade.Basic
import Polyglot.Facade.Build
import Polyglot.Session.Basic
import Polyglot.Shell.Octets
import Polyglot.Exec.Tree
import Polyglot.Shell.Formula.Basic
import Polyglot.Shell.Formula.Parser
import Polyglot.Shell.Word
import Polyglot.Shell.Command
import Polyglot.Shell.Pattern
import Polyglot.Tool.Basic
import Polyglot.Tool.File
import Polyglot.Tool.Format
import Polyglot.Tool.Filter
import Polyglot.Tool.Sed
import Polyglot.Tool.Program
import Polyglot.Shell.Machine
import Polyglot.Shell.Expansion
import Polyglot.Shell.Builtin
import Polyglot.Shell.Run
import Polyglot.Exec.Basic
import Polyglot.Compile.Command
import Polyglot.Exec.Child
import Polyglot.Toolchain.Command
import Polyglot.Cli.Arguments
import Polyglot.Cli.Report
import Polyglot.Cli.Dialogue
import Polyglot.Main
import Polyglot.Proofs.Channel.Context
import Polyglot.Proofs.Channel.Lock
import Polyglot.Proofs.Channel.Account
import Polyglot.Proofs.Channel.Strand
import Polyglot.Proofs.Channel.Attribution
import Polyglot.Proofs.Sandbox.Speech
import Polyglot.Proofs.Sandbox.Interleaving
import Polyglot.Proofs.Sandbox.Run
import Polyglot.Proofs.Sandbox.Coherence
import Polyglot.Proofs.Sandbox.Destruction
import Polyglot.Proofs.Sandbox.Release
import Polyglot.Proofs.Worker.Interleaving
import Polyglot.Proofs.Worker.Submission
import Polyglot.Proofs.Worker.Speech
import Polyglot.Proofs.Worker.Relay
import Polyglot.Proofs.Worker.Run
import Polyglot.Proofs.Worker.Service
import Polyglot.Proofs.Worker.Lending
import Polyglot.Proofs.Worker.Borrowing
import Polyglot.Proofs.Worker.Destruction
import Polyglot.Proofs.Submission
import Polyglot.Proofs.Facade.Interleaving
import Polyglot.Proofs.Host.Effects
import Polyglot.Proofs.Facade.Persistence
import Polyglot.Proofs.Facade.SingleFlight
import Polyglot.Proofs.Host.Duty
import Polyglot.Proofs.Host.Calls
import Polyglot.Proofs.Host.Endings
import Polyglot.Proofs.Facade.Ledger
import Polyglot.Proofs.Facade.Handling
import Polyglot.Proofs.Facade.Surroundings
import Polyglot.Proofs.Facade.Isolation
import Polyglot.Proofs.Text.Encoding
import Polyglot.Proofs.Text.Splitting
import Polyglot.Proofs.Text.Trimming
import Polyglot.Proofs.Scan.Enclosed
import Polyglot.Proofs.Scan.Sites
import Polyglot.Proofs.Scan.Literal
import Polyglot.Proofs.Scan.Splicing
import Polyglot.Proofs.Scan.Lookahead
import Polyglot.Proofs.Scan.Lexing
import Polyglot.Proofs.Scan.Lines
import Polyglot.Proofs.Scan.Wrapping
import Polyglot.Proofs.Scan.Lexemes
import Polyglot.Proofs.Scan.Settling
import Polyglot.Proofs.Scan.Comments
import Polyglot.Proofs.Scan.Carrying
import Polyglot.Proofs.Scan.Importing
import Polyglot.Proofs.Scan.Cursor.Reading
import Polyglot.Proofs.Scan.Cursor.Skipping
import Polyglot.Proofs.Scan.Cursor.Calling
import Polyglot.Proofs.Scan.Cursor.Rewriting
import Polyglot.Proofs.Scan.Cursor.Wrapping
import Polyglot.Proofs.Worker.Moves
import Polyglot.Proofs.Worker.Lobby
import Polyglot.Proofs.Worker.Upkeep
import Polyglot.Proofs.Worker.Sharing
import Polyglot.Proofs.Worker.Stopping
import Polyglot.Proofs.Channel.Hearing
import Polyglot.Proofs.Sandbox.Deeds
import Polyglot.Proofs.Sandbox.Hearsay
import Polyglot.Proofs.Worker.Deeds
import Polyglot.Proofs.Worker.Hearing
import Polyglot.Proofs.Worker.Letting
import Polyglot.Proofs.Worker.Calls
import Polyglot.Proofs.Worker.Seating
import Polyglot.Proofs.Worker.Hearsay
import Polyglot.Proofs.Hearsay
import Polyglot.Proofs.Input.Queue
import Polyglot.Proofs.Input.Desk
import Polyglot.Proofs.Input.Counter
import Polyglot.Proofs.Input.Exchange
import Polyglot.Proofs.Sandbox.Dealing
import Polyglot.Proofs.Sandbox.Correspondence
import Polyglot.Proofs.Worker.Dealing
import Polyglot.Proofs.Worker.Bench
import Polyglot.Proofs.Worker.Correspondence
import Polyglot.Proofs.Correspondence
import Polyglot.Proofs.Sandbox.Refusal
import Polyglot.Proofs.Host.History
import Polyglot.Proofs.Host.Refusal
import Polyglot.Proofs.Run.Trimming
import Polyglot.Proofs.Run.Aggregation
import Polyglot.Proofs.Run.Diagnostics
import Polyglot.Proofs.Toolchain.Outcomes
import Polyglot.Proofs.Sandbox.Collecting
import Polyglot.Proofs.Worker.Collecting
import Polyglot.Proofs.Host.Results
import Polyglot.Proofs.Facade.Making
import Polyglot.Proofs.Input.Serving
import Polyglot.Proofs.Sandbox.Serving
import Polyglot.Proofs.Worker.Serving
import Polyglot.Proofs.Host.Brokers
import Polyglot.Proofs.Host.Serving
import Polyglot.Proofs.Host.Sparing
import Polyglot.Proofs.Facade.Serving
import Polyglot.Proofs.Facade.Withdrawal
import Polyglot.Proofs.Facade.Routing
import Polyglot.Proofs.Sandbox.Lifecycle
import Polyglot.Proofs.Worker.Dismissal
import Polyglot.Proofs.Worker.Order
import Polyglot.Proofs.Worker.Crash
import Polyglot.Proofs.Worker.Aftermath
import Polyglot.Proofs.Facade.Aftermath
import Polyglot.Proofs.Json.RoundTrip
import Polyglot.Proofs.Wire.Framing
import Polyglot.Proofs.Wire.Listening
import Polyglot.Proofs.Channel.Sights
import Polyglot.Proofs.Sandbox.Sights
import Polyglot.Proofs.Worker.Sights
import Polyglot.Proofs.Sights
import Polyglot.Proofs.Config.Validity
import Polyglot.Proofs.Config.Resolution
import Polyglot.Proofs.Config.Timeout
import Polyglot.Proofs.Config.Substitution
import Polyglot.Proofs.Config.Expansion
import Polyglot.Proofs.Facade.Building
import Polyglot.Proofs.Facade.Dispatch
import Polyglot.Proofs.Cli.Timeout
