import Script.CommandLine.Folder
import Script.Evaluation.Rounds
import Script.Grammar.Progress
import Script.Main
import Script.Run.Program
import Script.Run.Session
import Script.Proofs.Grammar.Shape
import Script.Proofs.Grammar.Expression
import Script.Proofs.Grammar.Statement
import Script.Proofs.Grammar.Program
import Script.Proofs.Grammar.Source
import Script.Proofs.Grammar.Height
import Script.Proofs.Grammar.Lookahead
import Script.Proofs.Grammar.Completion
import Script.Proofs.Grammar.FirstFault
import Script.Proofs.Evaluation.Discipline
import Script.Proofs.Evaluation.Typing
import Script.Proofs.Evaluation.Resolution
import Script.Proofs.Evaluation.Printed
import Script.Proofs.Character
import Script.Proofs.Token.Lexeme
import Script.Proofs.Token.Boundary
import Script.Proofs.Token.Layout
import Script.Proofs.Token.Pieces
import Script.Proofs.Token.Printed
import Script.Proofs.Node.Items
import Script.Proofs.Node.UniqueReading
import Script.Proofs.Evaluation.Alike
import Script.Proofs.Run.Output
import Script.Proofs.Run.Stages
import Script.Proofs.Run.Batch
import Script.Proofs.Evaluation.Arithmetic
import Script.Proofs.Evaluation.Jumps
import Script.Proofs.Evaluation.NestedLinks
import Script.Proofs.Run.Truncation
import Script.Proofs.Run.Interchange
import Script.Proofs.Evaluation.Atomicity
import Script.Proofs.Evaluation.DeadCode
import Script.Proofs.Evaluation.Evolution
import Script.Proofs.Line
import Script.Proofs.Evaluation.Reports
import Script.Proofs.Run.Framing
import Script.Proofs.Grammar.Concatenation
import Script.Proofs.Token.Spacing
import Script.Proofs.Frames
import Script.Proofs.History
import Script.Proofs.Evaluation.Course
import Script.Proofs.Evaluation.FunctionTable
import Script.Proofs.Grammar.Walk
import Script.Proofs.Grammar.Extent
import Script.Proofs.Grammar.LexicalFaults
import Script.Proofs.Evaluation.Unreachable
