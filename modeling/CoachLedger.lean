import CoachLedger.Text.Range
import CoachLedger.Binary64.Basic
import CoachLedger.Decimal.Basic
import CoachLedger.Binary64.Nearest
import CoachLedger.Binary64.Shortest
import CoachLedger.Binary64.Layout
import CoachLedger.Json.Basic
import CoachLedger.Text.Hex
import CoachLedger.Json.Numeral
import CoachLedger.Json.Token
import CoachLedger.Json.Writer
import CoachLedger.Text.Fold
import CoachLedger.Json.Canonical
import CoachLedger.Calendar.Date
import CoachLedger.Text.Blank
import CoachLedger.Calendar.Reader
import CoachLedger.Value.Basic
import CoachLedger.Record.Kind
import CoachLedger.Audit.Alignment
import CoachLedger.Audit.Change
import CoachLedger.Audit.Channel
import CoachLedger.Json.Tree
import CoachLedger.Json.Reader
import CoachLedger.Audit.Log
import CoachLedger.CommandLine.Arguments
import CoachLedger.Text.Word
import CoachLedger.Environment.Basic
import CoachLedger.Environment.Lines
import CoachLedger.Environment.Assignment
import CoachLedger.Environment.File
import CoachLedger.Config.Layer
import CoachLedger.Config.File
import CoachLedger.Filter.Condition
import CoachLedger.Filter.Reader
import CoachLedger.Filter.Boundary
import CoachLedger.Host.Path
import CoachLedger.Host.Locator
import CoachLedger.Record.Basic
import CoachLedger.Value.Compare
import CoachLedger.Binary64.Wide
import CoachLedger.Sql.Numeral
import CoachLedger.Sql.Cell
import CoachLedger.Logic.Kleene
import CoachLedger.Text.Hidden
import CoachLedger.Text.Quoted
import CoachLedger.Predicate.Basic
import CoachLedger.Sql.Dialect
import CoachLedger.Sql.Pattern
import CoachLedger.Sql.Condition
import CoachLedger.Sql.Truth
import CoachLedger.Store.Table
import CoachLedger.Store.Basic
import CoachLedger.Host.Basic
import CoachLedger.Config.Settings
import CoachLedger.Store.Query
import CoachLedger.Ledger.Basic
import CoachLedger.Ledger.Workflow
import CoachLedger.Ledger.Session
import CoachLedger.CommandLine.Invocation
import CoachLedger.Filter.Operand
import CoachLedger.Filter.Compile
import CoachLedger.Ledger.Import
import CoachLedger.Ledger.Steps
import CoachLedger.CommandLine.Run
import CoachLedger.Digest.Sha256
import CoachLedger.Host.Disk
import CoachLedger.Store.Image
import CoachLedger.Main
import CoachLedger.Proofs.Binary64.Exact
import CoachLedger.Proofs.Decimal.Digits
import CoachLedger.Proofs.Calendar.RoundTrip
import CoachLedger.Proofs.Text.Order
import CoachLedger.Proofs.Calendar.TextOrder
import CoachLedger.Proofs.Value.Shape
import CoachLedger.Proofs.Sql.Pattern
import CoachLedger.Proofs.Sql.Column
import CoachLedger.Proofs.Filter.Clause
import CoachLedger.Proofs.Filter.Faithful
import CoachLedger.Proofs.Record.Fields
import CoachLedger.Proofs.Store.Rows
import CoachLedger.Proofs.Store.Update
import CoachLedger.Proofs.Store.Sound
import CoachLedger.Proofs.Store.Search
import CoachLedger.Proofs.Filter.Search
import CoachLedger.Proofs.Filter.Typed
import CoachLedger.Proofs.Audit.Parallel
import CoachLedger.Proofs.Ledger.Steps
import CoachLedger.Proofs.Store.Connection
import CoachLedger.Proofs.Store.Selection
import CoachLedger.Proofs.Ledger.Workflow
import CoachLedger.Proofs.Binary64.Shortest
import CoachLedger.Proofs.Json.Scalar
import CoachLedger.Proofs.Record.Json
import CoachLedger.Proofs.Audit.Alignment
import CoachLedger.Proofs.Audit.Records
import CoachLedger.Proofs.Store.Masters
import CoachLedger.Proofs.Ledger.WorkflowAudit
import CoachLedger.Proofs.Store.Overlay
import CoachLedger.Ledger.ImportSteps
import CoachLedger.Proofs.Ledger.ImportSteps
import CoachLedger.Proofs.Ledger.MasterImport
import CoachLedger.Proofs.Binary64.Monotone
import CoachLedger.Proofs.Store.HistoryRows
import CoachLedger.Proofs.Store.HistoryUpsert
import CoachLedger.Proofs.Ledger.HistoryImport
import CoachLedger.Ledger.Calls
import CoachLedger.Proofs.Ledger.Calls
import CoachLedger.Proofs.Store.WellFormed
import CoachLedger.Proofs.Ledger.WellFormed
import CoachLedger.Proofs.Audit.Log
import CoachLedger.Proofs.Ledger.AuditTrail
import CoachLedger.Proofs.Sql.Placeholders
import CoachLedger.Proofs.Filter.Boundary
import CoachLedger.Proofs.Filter.BooleanColumns
import CoachLedger.Proofs.Audit.Delivery
import CoachLedger.Proofs.Store.FailedUpsert
import CoachLedger.Proofs.Json.Scanning
import CoachLedger.Proofs.Json.Building
import CoachLedger.Proofs.Json.Inverse
import CoachLedger.Proofs.Filter.Writing
import CoachLedger.Proofs.Json.Equality
import CoachLedger.Proofs.Json.Faithful
import CoachLedger.Proofs.Audit.Visible
import CoachLedger.Proofs.Audit.Locality
import CoachLedger.Audit.Stacks
import CoachLedger.Proofs.Audit.Pairing
import CoachLedger.Proofs.Audit.Identifiers
import CoachLedger.Proofs.Audit.Symmetry
import CoachLedger.Proofs.Audit.Positions
import CoachLedger.Proofs.Store.Pieces
import CoachLedger.Proofs.Ledger.OwnNumber
import CoachLedger.Proofs.Binary64.Finite
import CoachLedger.Proofs.Json.Numbers
import CoachLedger.Proofs.Json.Rereading
import CoachLedger.Proofs.Json.Parsed
import CoachLedger.Proofs.Audit.Fragments
import CoachLedger.Proofs.Audit.Keeping
import CoachLedger.Proofs.Ledger.Listing
import CoachLedger.Proofs.Filter.Groups
import CoachLedger.Proofs.Filter.Complements
import CoachLedger.Proofs.Store.Paging
import CoachLedger.Proofs.Binary64.Rounding
import CoachLedger.Proofs.Value.Numbers
import CoachLedger.Proofs.Filter.NumericOperand
import CoachLedger.Predicate.Scan
import CoachLedger.Proofs.Predicate.Rewriting
import CoachLedger.Proofs.Record.RoundTrip
import CoachLedger.Proofs.Value.Dates
import CoachLedger.Proofs.Filter.DateColumns
import CoachLedger.Proofs.Value.Order
import CoachLedger.Proofs.Store.KeyOrder
import CoachLedger.Proofs.Sql.Escaping
import CoachLedger.Proofs.Filter.Forms
import CoachLedger.Proofs.Config.Layers
import CoachLedger.Proofs.Calendar.Pieces
import CoachLedger.Proofs.Calendar.Formats
import CoachLedger.Record.Open
import CoachLedger.Proofs.Record.Calls
