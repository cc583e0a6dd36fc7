import SqlSession.Calendar
import SqlSession.Catalog.Descriptor
import SqlSession.Catalog.Facets
import SqlSession.Catalog.Registry
import SqlSession.Catalog.TypeMap
import SqlSession.Command.Basic
import SqlSession.Command.Dispatch
import SqlSession.Connection.Basic
import SqlSession.Connection.Phase
import SqlSession.Connection.Version
import SqlSession.Cursor.Basic
import SqlSession.Cursor.Lifetime
import SqlSession.Diagnostic
import SqlSession.Engine.Basic
import SqlSession.Engine.Catalog
import SqlSession.Engine.Native
import SqlSession.Engine.Request
import SqlSession.Engine.Setting
import SqlSession.Engine.Tuples
import SqlSession.Error
import SqlSession.Json.Basic
import SqlSession.Json.Numeral
import SqlSession.Json.Printer
import SqlSession.Json.Reader
import SqlSession.Json.Token
import SqlSession.Keyed
import SqlSession.Number.Binary
import SqlSession.Number.Layout
import SqlSession.Number.Shortest
import SqlSession.Number.Unsigned
import SqlSession.Oid
import SqlSession.Outcome
import SqlSession.Parameter.Basic
import SqlSession.Proofs.Cursor.Opened
import SqlSession.Proofs.Cursor.Reading
import SqlSession.Proofs.Cursor.Refinement
import SqlSession.Proofs.Effect
import SqlSession.Proofs.Engine.Answer
import SqlSession.Proofs.Engine.Arena
import SqlSession.Proofs.Statement.Bytes
import SqlSession.Proofs.Statement.Chunks
import SqlSession.Proofs.Statement.Lexemes
import SqlSession.Proofs.Statement.Lossless
import SqlSession.Proofs.Statement.Opaque
import SqlSession.Proofs.Statement.Parse
import SqlSession.Proofs.Statement.Pieces
import SqlSession.Proofs.Statement.Placeholders
import SqlSession.Proofs.Statement.Rescan
import SqlSession.Proofs.Statement.Scanner
import SqlSession.Proofs.Statement.Segments
import SqlSession.Proofs.Statement.Simulation
import SqlSession.Proofs.Statement.Spans
import SqlSession.Session.Run
import SqlSession.Session.Step
import SqlSession.SqlState
import SqlSession.Statement.Lexeme
import SqlSession.Statement.Split
import SqlSession.Text.Blank
import SqlSession.Text.Digit
import SqlSession.Text.Folding
import SqlSession.Transaction.Basic
import SqlSession.Transaction.Isolation
import SqlSession.Transaction.Savepoint
import SqlSession.Value.Basic
import SqlSession.Value.Conversion
import SqlSession.Value.Target
import SqlSession.Proofs.Command.Arguments
import SqlSession.Proofs.Command.Plan
import SqlSession.Proofs.Engine.Growth
import SqlSession.Proofs.Command.Dispatch
import SqlSession.Proofs.Command.Opening
import SqlSession.Proofs.Command.BindingFaults
import SqlSession.Proofs.Connection.Standing
import SqlSession.Proofs.Session.Occupancy
import SqlSession.Proofs.Session.Standing
import SqlSession.Proofs.Statement.Joined
import SqlSession.Proofs.Command.Joined
import SqlSession.Proofs.Statement.Renumbered
import SqlSession.Proofs.Connection.Queries
import SqlSession.Proofs.Session.Queries
import SqlSession.Proofs.Transaction.Calls
import SqlSession.Proofs.Session.Completion
import SqlSession.Proofs.Engine.Records
import SqlSession.Proofs.Session.Records
import SqlSession.Proofs.Session.Closed
import SqlSession.Proofs.Session.Uncommitted
import SqlSession.Proofs.Catalog.Loading
import SqlSession.Proofs.Catalog.Agreement
import SqlSession.Proofs.Cursor.Grounded
import SqlSession.Proofs.Session.TypeNames
import SqlSession.Proofs.Catalog.Registering
import SqlSession.Proofs.Session.Ending
import SqlSession.Proofs.Cursor.CurrentRow
import SqlSession.Proofs.Session.CurrentRow
import SqlSession.Proofs.Command.Armed
import SqlSession.Proofs.Cursor.FetchFailure
import SqlSession.Proofs.Command.FetchFailure
import SqlSession.Proofs.Session.FetchFailure
import SqlSession.Proofs.Keyed
import SqlSession.Proofs.Catalog.Ordering
import SqlSession.Proofs.Catalog.RoundTrip
import SqlSession.Proofs.Transaction.Savepoint
import SqlSession.Proofs.Statement.Savepoints
import SqlSession.Proofs.Cursor.Affected
import SqlSession.Proofs.Command.Affected
import SqlSession.Proofs.Session.Affected
import SqlSession.Proofs.Connection.Version
import SqlSession.Proofs.SqlState
import SqlSession.Proofs.Catalog.Facets
import SqlSession.Proofs.Command.Prepared
import SqlSession.Proofs.Engine.Handles
import SqlSession.Proofs.Command.Handover
