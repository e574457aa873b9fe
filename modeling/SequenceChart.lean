import SequenceChart.Chart.Basic
import SequenceChart.Chart.Kind
import SequenceChart.Chart.Normal
import SequenceChart.Decimal.Shortest
import SequenceChart.Dot.Graph
import SequenceChart.Dot.OfChart
import SequenceChart.Dot.Print
import SequenceChart.Format.Category
import SequenceChart.Format.Chart
import SequenceChart.Format.FromJson
import SequenceChart.Format.FromText
import SequenceChart.Format.Shape
import SequenceChart.Format.ToJson
import SequenceChart.Json.Basic
import SequenceChart.Json.Fault
import SequenceChart.Json.Numeral
import SequenceChart.Json.Parse
import SequenceChart.Json.Print
import SequenceChart.Json.Quote
import SequenceChart.Json.Reader
import SequenceChart.Render.Basic
import SequenceChart.Render.Check
import SequenceChart.Render.Trace
import SequenceChart.Session
import SequenceChart.Text.Columns
import SequenceChart.Text.Cut
import SequenceChart.Text.Wrap
import SequenceChart.Unicode.Emoji
import SequenceChart.Unicode.Letters
import SequenceChart.Unicode.Ranges
import SequenceChart.Unicode.Unprintable
import SequenceChart.Unicode.Width
import SequenceChart.Proofs.Outline
import SequenceChart.Proofs.Numbering
import SequenceChart.Proofs.Quoting
import SequenceChart.Proofs.Enclosed
import SequenceChart.Proofs.ReadBack
import SequenceChart.Proofs.Refusal
import SequenceChart.Proofs.Settling
import SequenceChart.Proofs.NormalForm
import SequenceChart.Proofs.Words
import SequenceChart.Proofs.Width
import SequenceChart.Proofs.BoxNames
import SequenceChart.Proofs.JsonReading
import SequenceChart.Proofs.Brackets
import SequenceChart.Proofs.ValueReading
import SequenceChart.Proofs.WrittenText
import SequenceChart.Proofs.RoundTrip
import SequenceChart.Proofs.Spelling
import SequenceChart.Proofs.Pruning
import SequenceChart.Proofs.Setting
import SequenceChart.Proofs.Spacing
import SequenceChart.Proofs.Cutting
import SequenceChart.Proofs.DisplayColumns
import SequenceChart.Proofs.ColumnBound
import SequenceChart.Proofs.Copies
import SequenceChart.Proofs.Lines
import SequenceChart.Proofs.AddingUp
import SequenceChart.Proofs.Content
import SequenceChart.Proofs.Greedy
import SequenceChart.Proofs.WiderLimit
import SequenceChart.Proofs.StableLines
import SequenceChart.Proofs.Identifiers
import SequenceChart.Proofs.AttributeText
import SequenceChart.Proofs.Appending
import SequenceChart.Proofs.Breaks
import SequenceChart.Proofs.Entries
import SequenceChart.Proofs.Wording
import SequenceChart.Proofs.Spelled
import SequenceChart.Proofs.Skipping
import SequenceChart.Proofs.TwoReaders
import SequenceChart.Proofs.LongestCut
import SequenceChart.Proofs.Rounds
import SequenceChart.Proofs.Reports
