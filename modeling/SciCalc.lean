import SciCalc.Text.Character
import SciCalc.Text.Printable
import SciCalc.Text.Quoted
import SciCalc.Text.Input
import SciCalc.Number.Binary64
import SciCalc.Number.Decimal
import SciCalc.Number.Shortest
import SciCalc.Number.Text
import SciCalc.Operation
import SciCalc.Failure
import SciCalc.Token
import SciCalc.Trace
import SciCalc.Token.Spelling
import SciCalc.Token.Stream
import SciCalc.Scan
import SciCalc.Rpn.Conversion
import SciCalc.Rpn.Reduction
import SciCalc.Rpn.Text
import SciCalc.Evaluation
import SciCalc.Pull
import SciCalc.Log
import SciCalc.Log.Threshold
import SciCalc.Session
import SciCalc.Dialogue.Message
import SciCalc.Dialogue
import SciCalc.CommandLine.Usage
import SciCalc.CommandLine.Item
import SciCalc.CommandLine.Settings
import SciCalc.CommandLine
import SciCalc.Main
import SciCalc.Proofs.Segment
import SciCalc.Proofs.Enumeration
import SciCalc.Proofs.Text.Lines
import SciCalc.Proofs.Number.Bits
import SciCalc.Proofs.Number.Rounding
import SciCalc.Proofs.Number.Nearest
import SciCalc.Proofs.Number.Rational
import SciCalc.Proofs.Number.ReadBack
import SciCalc.Proofs.Number.Shortest
import SciCalc.Proofs.Number.Exact
import SciCalc.Proofs.Number.Significant
import SciCalc.Proofs.Number.Leading
import SciCalc.Proofs.Rpn.Runs
import SciCalc.Proofs.Rpn.ParseTree
import SciCalc.Proofs.Rpn.ZeroDefault
import SciCalc.Proofs.Rpn.UniqueTree
import SciCalc.Proofs.Rpn.Refusal
import SciCalc.Proofs.Rpn.Lockstep
import SciCalc.Proofs.Rpn.Supplied
import SciCalc.Proofs.Rpn.Words
import SciCalc.Proofs.Token.Places
import SciCalc.Proofs.Scan.Spelled
import SciCalc.Proofs.Scan.Written
import SciCalc.Proofs.Scan.Drawing
import SciCalc.Proofs.Scan.Longest
import SciCalc.Proofs.Scan.Boundary
import SciCalc.Proofs.Scan.Complete
import SciCalc.Proofs.Scan.Segmentation
import SciCalc.Proofs.Scan.Recognition
import SciCalc.Proofs.Scan.Number
import SciCalc.Proofs.Scan.Blanks
import SciCalc.Proofs.Scan.Blanked
import SciCalc.Proofs.Scan.Insertion
import SciCalc.Proofs.Infix.Grammar
import SciCalc.Proofs.Infix.Conversion
import SciCalc.Proofs.Infix.Preservation
import SciCalc.Proofs.Infix.Parentheses
import SciCalc.Proofs.Infix.Outcome
import SciCalc.Proofs.Infix.Order
import SciCalc.Proofs.Infix.Pending
import SciCalc.Proofs.Infix.Meaning
import SciCalc.Proofs.Infix.Composition
import SciCalc.Proofs.Infix.Alternation
import SciCalc.Proofs.Infix.Acceptance
import SciCalc.Proofs.Infix.Wrapped
import SciCalc.Proofs.Infix.Enclosure
import SciCalc.Proofs.Infix.Text
import SciCalc.Proofs.Infix.RoundTrip
import SciCalc.Proofs.Infix.Canonical
import SciCalc.Proofs.Stream.Course
import SciCalc.Proofs.Stream.Refusal
import SciCalc.Proofs.Stream.Shares
import SciCalc.Proofs.Stream.Skipped
import SciCalc.Proofs.Evaluation.Places
import SciCalc.Proofs.Evaluation.Strictness
import SciCalc.Proofs.Evaluation.Culprit
import SciCalc.Proofs.Evaluation.Result
import SciCalc.Proofs.Evaluation.Records
import SciCalc.Proofs.Session.History
import SciCalc.Proofs.Dialogue.Command
import SciCalc.Proofs.Dialogue.Answer
import SciCalc.Proofs.Dialogue.Stretch
import SciCalc.Proofs.CommandLine.Dialogue
import SciCalc.Proofs.CommandLine.Agreement
import SciCalc.Proofs.CommandLine.Observation
