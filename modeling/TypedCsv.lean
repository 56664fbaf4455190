import TypedCsv.Calendar.Date
import TypedCsv.Calendar.Formats
import TypedCsv.Calendar.Pattern
import TypedCsv.CellReader
import TypedCsv.CellWriter
import TypedCsv.Command.Arguments
import TypedCsv.Command.Disk
import TypedCsv.Command.Run
import TypedCsv.Decoder
import TypedCsv.Dialect
import TypedCsv.Document.Directive
import TypedCsv.Document.Layout
import TypedCsv.Document.Node
import TypedCsv.Document.Place
import TypedCsv.Document.Printer
import TypedCsv.Document.Reader
import TypedCsv.Document.Scalar
import TypedCsv.Document.Style
import TypedCsv.Document.Tag
import TypedCsv.Document.Token
import TypedCsv.Document.Tree
import TypedCsv.Document.Visit
import TypedCsv.Encoder
import TypedCsv.Error
import TypedCsv.Estimate
import TypedCsv.Framing.Plain
import TypedCsv.Framing.Quoted
import TypedCsv.Framing.Reader
import TypedCsv.Framing.Record
import TypedCsv.Guid
import TypedCsv.Main
import TypedCsv.Number.Binary64
import TypedCsv.Number.Decimal
import TypedCsv.Number.DecimalText
import TypedCsv.Number.Digits
import TypedCsv.Number.Integer
import TypedCsv.Number.Power
import TypedCsv.Options
import TypedCsv.Packing
import TypedCsv.Projection
import TypedCsv.Proofs.Accounting
import TypedCsv.Proofs.Agreement
import TypedCsv.Proofs.Appending
import TypedCsv.Proofs.Calendar.Ambiguity
import TypedCsv.Proofs.Calendar.Formats
import TypedCsv.Proofs.Calendar.Pattern
import TypedCsv.Proofs.Command.Disk
import TypedCsv.Proofs.Command.Transcoding
import TypedCsv.Proofs.Decoder
import TypedCsv.Proofs.Decoding
import TypedCsv.Proofs.Dialect
import TypedCsv.Proofs.ErrorLines
import TypedCsv.Proofs.EstimateBound
import TypedCsv.Proofs.Framing.Agreement
import TypedCsv.Proofs.Framing.Automaton
import TypedCsv.Proofs.Framing.Bytewise
import TypedCsv.Proofs.Framing.Contents
import TypedCsv.Proofs.Framing.Joining
import TypedCsv.Proofs.Framing.OnePass
import TypedCsv.Proofs.Framing.Plain
import TypedCsv.Proofs.Framing.PlainWriter
import TypedCsv.Proofs.Framing.Quoted
import TypedCsv.Proofs.Framing.Record
import TypedCsv.Proofs.Framing.Runs
import TypedCsv.Proofs.Guid
import TypedCsv.Proofs.Joining
import TypedCsv.Proofs.Leniency
import TypedCsv.Proofs.Names
import TypedCsv.Proofs.NullElements
import TypedCsv.Proofs.Nullability
import TypedCsv.Proofs.Number.Decimal
import TypedCsv.Proofs.Number.Digits
import TypedCsv.Proofs.Number.Integer
import TypedCsv.Proofs.Options
import TypedCsv.Proofs.Packing
import TypedCsv.Proofs.Pieces
import TypedCsv.Proofs.Places
import TypedCsv.Proofs.Projection
import TypedCsv.Proofs.Recoding
import TypedCsv.Proofs.RoundTrip.Cell
import TypedCsv.Proofs.RoundTrip.Count
import TypedCsv.Proofs.RoundTrip.Encoded
import TypedCsv.Proofs.RoundTrip.Normal
import TypedCsv.Proofs.RoundTrip.Recoded
import TypedCsv.Proofs.RoundTrip.Row
import TypedCsv.Proofs.Sampling
import TypedCsv.Proofs.Scalar
import TypedCsv.Proofs.Source
import TypedCsv.Proofs.Steps
import TypedCsv.Proofs.Text.Backslash
import TypedCsv.Proofs.Text.Utf8
import TypedCsv.Proofs.Typing
import TypedCsv.RowType
import TypedCsv.Scalar
import TypedCsv.Source
import TypedCsv.TableDefinition
import TypedCsv.Text.Backslash
import TypedCsv.Text.Blank
import TypedCsv.Text.Quoted
import TypedCsv.Text.Split
import TypedCsv.Text.Unprintable
import TypedCsv.Text.Utf8
import TypedCsv.Value
