import LogLens.Text.Lowercase
import LogLens.Text.CharSet.Alphabetic
import LogLens.Text.CharSet.DecimalDigit
import LogLens.Text.CharSet.OtherNumber
import LogLens.Text.CharSet.Wide
import LogLens.Text.CharSet.WordMark
import LogLens.Text.CharSet.ZeroWidth
import LogLens.Text.CharClass
import LogLens.Text.Slice
import LogLens.Text.Utf8
import LogLens.Dict
import LogLens.Number.Binary64
import LogLens.Number.Decimal
import LogLens.Number.Notation
import LogLens.Number.Reading
import LogLens.Time.Calendar
import LogLens.Time.Instant
import LogLens.Time.Written
import LogLens.Text.Pattern
import LogLens.Time.Layout
import LogLens.Level
import LogLens.Time.Stamp
import LogLens.Header
import LogLens.KeyValue
import LogLens.Json
import LogLens.Json.Reader
import LogLens.Json.Relaxed
import LogLens.Document
import LogLens.LogFile
import LogLens.Query.Filter
import LogLens.Query.Parser
import LogLens.Index.EditDistance
import LogLens.Index.FieldStats
import LogLens.Index.Terms
import LogLens.Index.TextIndex
import LogLens.Match
import LogLens.Order.SmallSort
import LogLens.Order.StableSort
import LogLens.Index.LogIndex
import LogLens.Ingest
import LogLens.Report.Style
import LogLens.Report.Table
import LogLens.Report.Text
import LogLens.Codec.Identifier
import LogLens.Codec.Writer
import LogLens.Codec.Reader
import LogLens.Toml.Reader
import LogLens.Config.Load
import LogLens.Cli.Arguments
import LogLens.Cli.Run
import LogLens.Main
import LogLens.Proofs.Dict.Count
import LogLens.Proofs.Index.EditDistance
import LogLens.Proofs.Index.EditSteps
import LogLens.Proofs.Index.PrefixRange
import LogLens.Proofs.Index.Postings
import LogLens.Proofs.Order.StableSort
import LogLens.Proofs.Index.Scores
import LogLens.Proofs.Index.Tallies
import LogLens.Proofs.Index.FieldTypes
import LogLens.Proofs.Index.History
import LogLens.Proofs.Number.Order
import LogLens.Proofs.Order.Merging
import LogLens.Proofs.Order.SmallSort
import LogLens.Proofs.Order.Runs
import LogLens.Proofs.Order.Quicksort
import LogLens.Proofs.Index.Ranking
import LogLens.Proofs.Index.Scan
import LogLens.Proofs.Time.Order
import LogLens.Proofs.Index.Summary
import LogLens.Proofs.Index.Renaming
import LogLens.Proofs.Index.Reinsertion
import LogLens.Proofs.Ingest.Chunks
import LogLens.Proofs.Document.Lines
import LogLens.Proofs.Query.Positions
import LogLens.Proofs.Query.Segments
import LogLens.Proofs.Query.Conjunction
import LogLens.Proofs.Text.Trim
import LogLens.Proofs.Text.Pattern
import LogLens.Proofs.Text.Language
import LogLens.Proofs.Query.Words
import LogLens.Proofs.Query.Literals
import LogLens.Proofs.Query.Printing
import LogLens.Proofs.Time.Calendar
import LogLens.Proofs.Time.Layout
import LogLens.Proofs.Time.Recognition
import LogLens.Proofs.Time.MillisText
import LogLens.Proofs.Time.Parts
import LogLens.Proofs.Query.Facet
import LogLens.Proofs.Query.Bounds
import LogLens.Proofs.Query.TimestampFilter
import LogLens.Proofs.Query.SameInstant
import LogLens.Proofs.Query.Quoting
import LogLens.Proofs.Query.Grammar
import LogLens.Proofs.Index.Aggregation
import LogLens.Proofs.Json.Compact
import LogLens.Proofs.Query.Negation
import LogLens.Proofs.Text.Lines
import LogLens.Proofs.Document.Arrays
import LogLens.Proofs.Ingest.Progress
import LogLens.Proofs.Document.Members
import LogLens.Proofs.Header.LevelWords
import LogLens.Proofs.Header.Stamps
import LogLens.Proofs.Time.Yearless
import LogLens.Proofs.Time.Renderings
import LogLens.Proofs.Header.Shapes
import LogLens.Proofs.Header.Brackets
import LogLens.Proofs.Header.Languages
import LogLens.Proofs.Header.Soundness
import LogLens.Proofs.KeyValue.Rendering
import LogLens.Proofs.Index.Limit
import LogLens.Proofs.Query.CaseSensitivity
import LogLens.Proofs.Json.Lexing
import LogLens.Proofs.Json.Values
import LogLens.Proofs.Codec.Identifier
import LogLens.Proofs.Codec.Parts
import LogLens.Proofs.Number.Integers
import LogLens.Proofs.Codec.RoundTrip
import LogLens.Proofs.Codec.Stability
import LogLens.Proofs.Index.WordScan
import LogLens.Proofs.Index.Representation
import LogLens.Proofs.Text.LoweredChars
import LogLens.Proofs.Index.Terms
import LogLens.Proofs.Query.Spans
