import Etp.Authority.Cose
import Etp.Authority.Preimages
import Etp.Authority.Statement
import Etp.Authority.Verify
import Etp.Cli.Agreement
import Etp.Cli.Command
import Etp.Cli.Script
import Etp.Conformance.Lifecycle
import Etp.Conformance.Target
import Etp.Conformance.Trace
import Etp.Core.Acceptance
import Etp.Core.Canonical
import Etp.Core.ClockRace
import Etp.Core.Commitment
import Etp.Core.Digest
import Etp.Core.HighWater
import Etp.Core.Ledger
import Etp.Core.MemoryStore
import Etp.Core.Record
import Etp.Core.Serde
import Etp.Core.Shape
import Etp.Core.SingleUse
import Etp.Core.Text
import Etp.Core.Vectors
import Etp.Core.Verify
import Etp.Executor.Accounts
import Etp.Executor.AtMostOnce
import Etp.Executor.Claims
import Etp.Executor.Closing
import Etp.Executor.Dispatch
import Etp.Executor.Effect
import Etp.Executor.Failures
import Etp.Executor.LateDispatch
import Etp.Executor.Operations
import Etp.Executor.World
import Etp.Formal.Refinement
import Etp.Formal.Specification
import Etp.Lib.Ascii
import Etp.Lib.Budget
import Etp.Lib.Cbor
import Etp.Lib.Chained
import Etp.Lib.Corresponds
import Etp.Lib.Json.Document
import Etp.Lib.Json.Grammar
import Etp.Lib.Json.Language
import Etp.Lib.Json.Pointer
import Etp.Lib.Json.Read
import Etp.Lib.Json.Reader
import Etp.Lib.Json.RoundTrip
import Etp.Lib.Json.Same
import Etp.Lib.Json.Sorted
import Etp.Lib.Json.Syntax
import Etp.Lib.Json.Text
import Etp.Lib.KeyMap
import Etp.Lib.Machine
import Etp.Lib.Program
import Etp.Lib.Reads
import Etp.Lib.Result
import Etp.Lib.Simulation
import Etp.Lib.Table
import Etp.Lib.Utf16
import Etp.Lib.Utf8
import Etp.Profiles.JsonPatch
import Etp.Profiles.Postconditions
import Etp.Profiles.Scanner
import Etp.Sqlite.Attempt
import Etp.Sqlite.Batch
import Etp.Sqlite.Constraints
import Etp.Sqlite.Currentness
import Etp.Sqlite.Durable
import Etp.Sqlite.Fence
import Etp.Sqlite.Identifiers
import Etp.Sqlite.Invariant
import Etp.Sqlite.Later
import Etp.Sqlite.Lifecycle
import Etp.Sqlite.Operations
import Etp.Sqlite.Retry
import Etp.Sqlite.RoundTrip
import Etp.Sqlite.Schema
import Etp.Sqlite.Statements
import Etp.Sqlite.Store
import Etp.Sqlite.Tables
import Etp.Sqlite.Terminal
import Etp.Sqlite.TrustedTime
import Etp.Sqlite.View
import Etp.TypeScript.Agreement
import Etp.TypeScript.Canonical
import Etp.TypeScript.Checks
import Etp.TypeScript.Encoding
import Etp.TypeScript.Lexemes
import Etp.TypeScript.Memory
import Etp.TypeScript.Numerals
import Etp.TypeScript.Order
import Etp.TypeScript.Parser
import Etp.TypeScript.Plain
import Etp.TypeScript.Records
import Etp.TypeScript.RoundTrip
import Etp.TypeScript.Strict
import Etp.TypeScript.Texts
import Etp.TypeScript.Transaction
import Etp.TypeScript.Verify
