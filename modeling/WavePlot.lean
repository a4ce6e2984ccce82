import WavePlot.Main
import WavePlot.Session
import WavePlot.Folder
import WavePlot.Proofs.Binary64.Rounding
import WavePlot.Proofs.Folds
import WavePlot.Proofs.Phase
import WavePlot.Proofs.Parameter.Acceptance
import WavePlot.Proofs.Settings.Invariant
import WavePlot.Proofs.Template.Pieces
import WavePlot.Proofs.Template.Rendering
import WavePlot.Proofs.Decimal.Nearest
import WavePlot.Proofs.Decimal.Plain
import WavePlot.Proofs.Decimal.Shortest
import WavePlot.Proofs.Decimal.Layout
import WavePlot.Proofs.Decimal.RoundTrip
import WavePlot.Proofs.Decimal.Numeral
import WavePlot.Proofs.Settings.RoundTrip
import WavePlot.Proofs.Settings.Refusal
import WavePlot.Proofs.Run.Course
import WavePlot.Proofs.CommandLine.Words
import WavePlot.Proofs.CommandLine.Classes
import WavePlot.Proofs.CommandLine.Positions
import WavePlot.Proofs.CommandLine.Reading
import WavePlot.Proofs.CommandLine.Meaning
import WavePlot.Proofs.Run.Outcome
import WavePlot.Proofs.CommandLine.Agreement
import WavePlot.Proofs.Run.Comparison
import WavePlot.Proofs.Settings.History
import WavePlot.Proofs.Settings.Shift
import WavePlot.Proofs.Binary64.Order
import WavePlot.Proofs.Decimal.Fewest
import WavePlot.Proofs.Decimal.Notation
import WavePlot.Proofs.Binary64.Text
import WavePlot.Proofs.Settings.Locality
import WavePlot.Proofs.Settings.LastWins
import WavePlot.Proofs.CommandLine.Parameters
import WavePlot.Proofs.Run.Parameters
import WavePlot.Proofs.Binary64.Ties
import WavePlot.Proofs.Binary64.CorrectRounding
import WavePlot.Proofs.Phase.Remainder
import WavePlot.Proofs.Decimal.Grammar
import WavePlot.Proofs.Settings.Outcome
import WavePlot.Proofs.Parameter.Numbers
import WavePlot.Proofs.Settings.NumericAssignment
import WavePlot.Proofs.Settings.ValueWords
import WavePlot.Proofs.Settings.NumberWords
import WavePlot.Proofs.Settings.Keywords
import WavePlot.Proofs.Decimal.IntegerText
import WavePlot.Proofs.Settings.WidthWords
import WavePlot.Proofs.Text.WellFormed
import WavePlot.Proofs.Text.Decoding
import WavePlot.Proofs.Text.Undecodable
import WavePlot.Proofs.Text.Newline
import WavePlot.Proofs.Template.Loading
import WavePlot.Proofs.CommandLine.Operands
import WavePlot.Proofs.CommandLine.Offences
import WavePlot.Proofs.Run.Usage
import WavePlot.Proofs.Decimal.Characters
import WavePlot.Proofs.Template.Occurrence
import WavePlot.Proofs.Template.Builtin
import WavePlot.Proofs.Template.Leftover
import WavePlot.Proofs.Text.Encodable
import WavePlot.Proofs.Template.Encodable
import WavePlot.Proofs.Template.Recovery
import WavePlot.Proofs.Text.StringLiteral
import WavePlot.Proofs.Text.Quoted
import WavePlot.Proofs.Settings.Messages
import WavePlot.Proofs.Run.Refusals
