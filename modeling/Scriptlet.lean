import Scriptlet.Source.Slice
import Scriptlet.Source.Blank
import Scriptlet.Source.Span
import Scriptlet.Text.Quoted
import Scriptlet.Text.Printable
import Scriptlet.Text.Visible
import Scriptlet.Number.Shortest
import Scriptlet.Number.Written
import Scriptlet.Number.Floating
import Scriptlet.Number.Integer
import Scriptlet.Tree.Operator
import Scriptlet.Tree.Node
import Scriptlet.Tree.Walk
import Scriptlet.Tree.Rendering
import Scriptlet.Tree.Transcript
import Scriptlet.Evaluation.Value
import Scriptlet.Evaluation.Fault
import Scriptlet.Evaluation.Operation
import Scriptlet.Evaluation.Registers
import Scriptlet.Evaluation.Policy
import Scriptlet.Evaluation.Variables
import Scriptlet.Evaluation.Workspace
import Scriptlet.Evaluation.Outcome
import Scriptlet.Evaluation.Run
import Scriptlet.Evaluation.Interpreter
import Scriptlet.Script.Layout
import Scriptlet.Script.Execution
import Scriptlet.Script.Reading
import Scriptlet.Grammar.Token
import Scriptlet.Grammar.Lexing
import Scriptlet.Grammar.Cursor
import Scriptlet.Grammar.Parsing
import Scriptlet.Proofs.Evaluation.Congruence
import Scriptlet.Proofs.Evaluation.Endings
import Scriptlet.Proofs.Evaluation.Loosening
import Scriptlet.Proofs.Evaluation.Simulation
import Scriptlet.Proofs.Evaluation.Binding
import Scriptlet.Proofs.Evaluation.Reach
import Scriptlet.Proofs.Grammar.Derivations
import Scriptlet.Proofs.Grammar.Expressions
import Scriptlet.Proofs.Grammar.Regrouping
import Scriptlet.Proofs.Grammar.Statements
import Scriptlet.Proofs.Script.Layouts
import Scriptlet.Proofs.Script.Reading
import Scriptlet.Proofs.Grammar.RoundTrip
import Scriptlet.Proofs.Evaluation.Footprint
import Scriptlet.Proofs.Evaluation.WellFormed
import Scriptlet.Proofs.Grammar.Shape
import Scriptlet.Proofs.Grammar.Phrases
import Scriptlet.Proofs.Script.Acceptance
import Scriptlet.Proofs.Script.Safety
import Scriptlet.Proofs.Text.Quoted
import Scriptlet.Proofs.Tree.Pieces
import Scriptlet.Proofs.Tree.Writing
import Scriptlet.Proofs.Tree.Outline
import Scriptlet.Proofs.Tree.Unambiguous
import Scriptlet.Proofs.Tree.ControlFlow
import Scriptlet.Proofs.Evaluation.Places
import Scriptlet.Proofs.Evaluation.Depth
import Scriptlet.Proofs.Evaluation.Foreign
import Scriptlet.Proofs.Script.Surplus
import Scriptlet.Proofs.Evaluation.Loops
import Scriptlet.Proofs.Grammar.SourceMap
import Scriptlet.Proofs.Source.Bytes
import Scriptlet.Proofs.Grammar.Cursor
import Scriptlet.Proofs.Grammar.Lossless
import Scriptlet.Proofs.Script.Contexts
import Scriptlet.Proofs.Script.Declarations
import Scriptlet.Proofs.Evaluation.Elements
import Scriptlet.Proofs.Evaluation.Origins
import Scriptlet.Proofs.Evaluation.Reports
import Scriptlet.Proofs.Tree.Walks
import Scriptlet.Proofs.Tree.Transcripts
import Scriptlet.Proofs.Evaluation.Arithmetic
import Scriptlet.Proofs.Evaluation.Comparison
import Scriptlet.Proofs.Script.Sequencing
import Scriptlet.Proofs.Evaluation.Containers
import Scriptlet.Proofs.Tree.Signs
