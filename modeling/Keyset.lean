import Keyset.Main
import Keyset.Order.Json
import Keyset.Source.SqlTable
import Keyset.Traversal
import Keyset.Proofs.Text.Base64Url
import Keyset.Proofs.Text.Utf8
import Keyset.Proofs.Number.Exact
import Keyset.Proofs.Number.Nearest
import Keyset.Proofs.Number.Shortest
import Keyset.Proofs.Number.Written
import Keyset.Proofs.Calendar.Date
import Keyset.Proofs.Calendar.Reading
import Keyset.Proofs.Json.Numeral
import Keyset.Proofs.Json.Scan
import Keyset.Proofs.Json.Read
import Keyset.Proofs.Value.Order
import Keyset.Proofs.Value.Uuid
import Keyset.Proofs.Value.Text
import Keyset.Proofs.Order.Rows
import Keyset.Proofs.Order.Names
import Keyset.Proofs.Order.Missing
import Keyset.Proofs.Order.Fingerprint
import Keyset.Proofs.Cursor.Position
import Keyset.Proofs.Cursor.Token
import Keyset.Proofs.Cursor.Binding
import Keyset.Proofs.Condition.Joined
import Keyset.Proofs.Condition.Seek
import Keyset.Proofs.Reader.Step
import Keyset.Proofs.Reader.Exact
import Keyset.Proofs.Reader.Writers
import Keyset.Proofs.Reader.Disturbed
import Keyset.Proofs.Reader.Moves
import Keyset.Proofs.Reader.Relay
import Keyset.Proofs.Reader.History
import Keyset.Proofs.Reader.Tokens
import Keyset.Proofs.Reader.Loss
import Keyset.Proofs.Reader.Progress
import Keyset.Proofs.Sql.Meaning
import Keyset.Proofs.Sql.Refine
import Keyset.Proofs.Order.Lookup
import Keyset.Proofs.Cursor.Names
import Keyset.Proofs.Cursor.Fit
import Keyset.Proofs.Reader.Fitting
import Keyset.Proofs.Csv.Records
import Keyset.Proofs.Reader.Covers
import Keyset.Proofs.Source.CsvTable
import Keyset.Proofs.Order.Json
import Keyset.Proofs.Sql.Pieces
import Keyset.Proofs.Sql.Shape
import Keyset.Proofs.Sql.Quotation
import Keyset.Proofs.Sql.ReadBack
import Keyset.Proofs.Sql.Readable
import Keyset.Proofs.Condition.Alike
import Keyset.Proofs.Sql.Revealed
import Keyset.Proofs.Value.Distinct
import Keyset.Proofs.Number.Units
import Keyset.Proofs.Sql.Dialects
import Keyset.Proofs.Value.Numbers
import Keyset.Proofs.Sql.Parameters
import Keyset.Proofs.Sql.Placeholders
import Keyset.Proofs.Text.Pieces
import Keyset.Proofs.Order.Text
import Keyset.Proofs.Order.Signature
import Keyset.Proofs.Page.Size
import Keyset.Proofs.Page.Changes
import Keyset.Proofs.Page.Document
import Keyset.Proofs.Reader.Streams
import Keyset.Proofs.Reader.Delivered
import Keyset.Proofs.Sql.Joined
import Keyset.Proofs.Number.Signed
import Keyset.Proofs.Value.Infer
import Keyset.Proofs.Source.Inferred
import Keyset.Proofs.Settings.Sources
