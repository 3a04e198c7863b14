import Calculator.Grammar.Derivation
import Calculator.Grammar.Log
import Calculator.Main
import Calculator.Session.Reachable
import Calculator.Session.Trace
import Calculator.Tree.Builder
import Calculator.Tree.Printer
import Calculator.Proofs.Token.Boundary
import Calculator.Proofs.Grammar.Induction
import Calculator.Proofs.Operator.Apply
import Calculator.Proofs.Operator.Effect
import Calculator.Proofs.Token.Numeral
import Calculator.Proofs.Token.Within
import Calculator.Proofs.Grammar.Lockstep
import Calculator.Proofs.Grammar.Simulation
import Calculator.Proofs.Session.Names
import Calculator.Proofs.Session.Control
import Calculator.Proofs.Tree.Interpretation
import Calculator.Proofs.Tree.Reading
import Calculator.Proofs.Session.Acceptance
import Calculator.Proofs.Tree.Printing
import Calculator.Proofs.Session.Sequence
import Calculator.Proofs.Session.Cells
import Calculator.Proofs.Number.Factorials
import Calculator.Proofs.Grammar.Invariant
import Calculator.Proofs.Session.Frame
import Calculator.Proofs.Session.Footprint
import Calculator.Proofs.Number.Bits
import Calculator.Proofs.Number.Unpacked
import Calculator.Number.Value
import Calculator.Proofs.Number.Whole
import Calculator.Proofs.Number.Words
import Calculator.Proofs.Operator.Words
import Calculator.Proofs.Number.Rounding
import Calculator.Proofs.Number.Shortest
import Calculator.Proofs.Session.Formatting
import Calculator.Grammar.Cause
import Calculator.Proofs.Session.Errors
import Calculator.Session.Spacing
import Calculator.Proofs.Grammar.Alignment
import Calculator.Proofs.Session.ReadAlike
import Calculator.Proofs.Session.Spacing
import Calculator.Proofs.Session.Idempotence
import Calculator.Grammar.Visit
import Calculator.Proofs.Operator.Atomic
import Calculator.Proofs.Grammar.Progress
import Calculator.Proofs.Grammar.Visit
import Calculator.Proofs.Session.Termination
import Calculator.Console.Dialogue
import Calculator.Proofs.Text.Cut
import Calculator.Proofs.Console.Dialogue
import Calculator.Binding.Handles
import Calculator.Proofs.Binding.Handles
import Calculator.Proofs.Grammar.Levels
import Calculator.Proofs.Session.Eager
import Calculator.Proofs.Session.Compound
import Calculator.Proofs.Token.Lossless
import Calculator.Proofs.Token.Pattern
import Calculator.Proofs.Text.Line
import Calculator.Proofs.Grammar.Onward
import Calculator.Proofs.Session.Report
import Calculator.Proofs.Session.Comma
import Calculator.Token.Shape
import Calculator.Proofs.Token.Shape
import Calculator.Proofs.Grammar.Greedy
import Calculator.Proofs.Session.Levels
import Calculator.Proofs.Session.Message
