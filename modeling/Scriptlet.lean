import Scriptlet.Builtin
import Scriptlet.CommandLine
import Scriptlet.Console
import Scriptlet.Diagnostic
import Scriptlet.Eval
import Scriptlet.Eval.Builtin
import Scriptlet.Eval.Program
import Scriptlet.EvalError
import Scriptlet.Event
import Scriptlet.Execution
import Scriptlet.Grammar
import Scriptlet.Main
import Scriptlet.Program
import Scriptlet.Program.Printer
import Scriptlet.Proofs.Eval.Arithmetic
import Scriptlet.Proofs.Eval.Chains
import Scriptlet.Proofs.Eval.Coming
import Scriptlet.Proofs.Eval.Confinement
import Scriptlet.Proofs.Eval.Consecutive
import Scriptlet.Proofs.Eval.Discipline
import Scriptlet.Proofs.Eval.Equality
import Scriptlet.Proofs.Eval.Frame
import Scriptlet.Proofs.Eval.Ground
import Scriptlet.Proofs.Eval.Identity
import Scriptlet.Proofs.Eval.Lookup
import Scriptlet.Proofs.Eval.Matching
import Scriptlet.Proofs.Eval.Parts
import Scriptlet.Proofs.Eval.Placement
import Scriptlet.Proofs.Eval.Policy
import Scriptlet.Proofs.Eval.Renaming
import Scriptlet.Proofs.Eval.Repeatable
import Scriptlet.Proofs.Eval.Scoping
import Scriptlet.Proofs.Eval.Signals
import Scriptlet.Proofs.Eval.Simulation
import Scriptlet.Proofs.Eval.Stages
import Scriptlet.Proofs.Eval.Tail
import Scriptlet.Proofs.Eval.Unwinding
import Scriptlet.Proofs.Eval.Visible
import Scriptlet.Proofs.Eval.Walks
import Scriptlet.Proofs.Execution.Data
import Scriptlet.Proofs.Execution.Lines
import Scriptlet.Proofs.Execution.MapReduce
import Scriptlet.Proofs.Phrase.Completeness
import Scriptlet.Proofs.Phrase.Derivation
import Scriptlet.Proofs.Phrase.Grammar
import Scriptlet.Proofs.Phrase.Nesting
import Scriptlet.Proofs.Phrase.Numbers
import Scriptlet.Proofs.Phrase.Recognition
import Scriptlet.Proofs.Phrase.Soundness
import Scriptlet.Proofs.Printer.Inspected
import Scriptlet.Proofs.Printer.RoundTrip
import Scriptlet.Proofs.Printer.Spelled
import Scriptlet.Proofs.Reader.Abreast
import Scriptlet.Proofs.Reader.Bounds
import Scriptlet.Proofs.Reader.Braceless
import Scriptlet.Proofs.Reader.Braces
import Scriptlet.Proofs.Reader.Completion
import Scriptlet.Proofs.Reader.Concatenation
import Scriptlet.Proofs.Reader.Describing
import Scriptlet.Proofs.Reader.Earliest
import Scriptlet.Proofs.Reader.Enclosing
import Scriptlet.Proofs.Reader.Expressible
import Scriptlet.Proofs.Reader.Joining
import Scriptlet.Proofs.Reader.Layout
import Scriptlet.Proofs.Reader.Lockstep
import Scriptlet.Proofs.Reader.Motion
import Scriptlet.Proofs.Reader.Pointing
import Scriptlet.Proofs.Reader.Progress
import Scriptlet.Proofs.Reader.Repair
import Scriptlet.Proofs.Reader.Settling
import Scriptlet.Proofs.Reader.Tables
import Scriptlet.Proofs.Reader.Termination
import Scriptlet.Proofs.Session.Closing
import Scriptlet.Proofs.Table.Insertion
import Scriptlet.Proofs.Token.Ended
import Scriptlet.Proofs.Token.LongestMatch
import Scriptlet.Proofs.Token.Offsets
import Scriptlet.Proofs.Token.Respelling
import Scriptlet.Proofs.Token.Spelling
import Scriptlet.Proofs.Token.Tiling
import Scriptlet.Reader.Cursor
import Scriptlet.Reader.Expression
import Scriptlet.Reader.Handler
import Scriptlet.Reader.Statement
import Scriptlet.Reading
import Scriptlet.Register
import Scriptlet.Run
import Scriptlet.Session
import Scriptlet.Store
import Scriptlet.Table
import Scriptlet.Text.Blank
import Scriptlet.Text.Decimal
import Scriptlet.Text.Lines
import Scriptlet.Text.Printable
import Scriptlet.Text.Quoted
import Scriptlet.Text.Ranges
import Scriptlet.Token
import Scriptlet.Token.Lexer
import Scriptlet.Value
import Scriptlet.Value.Kind
import Scriptlet.Value.Operation
