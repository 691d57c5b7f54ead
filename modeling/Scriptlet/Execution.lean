import Scriptlet.Eval.Program
import Scriptlet.Reading
import Scriptlet.Session
import Scriptlet.Text.Lines

/-!
# Executing a source text

A text is executed in one of the modes and gives a text to show, or fails. All that happens on the
way, printed text and events, is in the store at the end.
-/
set_option autoImplicit false

namespace Scriptlet

inductive File.Fault where
  | missing
  | directory
  | denied
  | notText
  | other (reason : String)
deriving DecidableEq, Repr

def File.Fault.reason : File.Fault → String
  | .missing => "No such file or directory (os error 2)"
  | .directory => "Is a directory (os error 21)"
  | .denied => "Permission denied (os error 13)"
  | .notText => "stream did not contain valid UTF-8"
  | .other reason => reason

inductive File where
  | bytes (content : List UInt8)
  | unreadable (fault : File.Fault)

def File.text : File → Except File.Fault String
  | .unreadable fault => .error fault
  | .bytes content =>
    match Text.decode? content with
    | some text => .ok text
    | none => .error .notText

inductive Failure where
  | unreadable (path : String) (fault : File.Fault)
  /-- The source text cannot be read as a program. -/
  | rejected (diagnostics : List Diagnostic)
  | evaluation (error : EvalError)
  /-- A line of the input is not text. -/
  | input
  /-- There is no answer. -/
  | halted (why : Halt)

def diagnosticsText (diagnostics : List Diagnostic) : String :=
  "parser errors:" ++ String.join (diagnostics.map fun diagnostic => "\n\t" ++ diagnostic.message)

def Failure.message : Failure → String
  | .unreadable path fault => "could not read " ++ path ++ ": " ++ fault.reason
  | .rejected diagnostics => diagnosticsText diagnostics
  | .evaluation error => "ERROR: " ++ error.message
  | .input => "readline failed: " ++ File.Fault.notText.reason
  | .halted .exhausted => "calls are nested too deeply"
  | .halted .pastEnd => Lexer.Fault.pastEnd.message

abbrev Execution := Run Store Failure

/-- How deeply calls are nested at most where nothing else is said. -/
def callDepth : Nat :=
  4000

namespace Execution

def ofEvaluation {α : Type} (evaluation : Evaluation α) : Execution α :=
  fun store =>
    match evaluation store with
    | .ok value store => .ok value store
    | .halted why => .halted why

def program (source : String) : Execution Program := do
  let reading := read source
  Run.modify fun store => reading.diagnostics.foldl (fun store d => store.note (.recorded d)) store
  match reading.result with
  | .ok program => return program
  | .error diagnostics => Run.raise (.rejected diagnostics)

def evaluate (depth : Nat) (session : Session) (source : String) : Execution Value := do
  let code ← program source
  ofEvaluation (.fresh depth session.root (.program code))

def source (depth : Nat) (mode : Mode) (source : String) : Execution String := do
  Run.modify fun store => store.note (.executing mode source.utf8ByteSize)
  match mode with
  | .tokens => return tokenListing source
  | .ast =>
    let program ← program source
    return program.text
  | .eval =>
    let session ← Run.step Session.start
    let value ← evaluate depth session source
    Run.modify session.close
    match value with
    | .error _ error => Run.raise (.evaluation error)
    | value => return value.inspect

def file (depth : Nat) (mode : Mode) (path : String) (file : File) : Execution String := do
  match file.text with
  | .ok text => source depth mode text
  | .error fault => Run.raise (.unreadable path fault)

end Execution

structure Report (α : Type) where
  result : Except Failure α
  output : String
  events : List Event

def Execution.report {α : Type} (execution : Execution α) : Report α :=
  match execution .empty with
  | .ok value store => ⟨.ok value, store.output, store.log.toList⟩
  | .raised failure store => ⟨.error failure, store.output, store.log.toList⟩
  | .halted why => ⟨.error (.halted why), "", []⟩

end Scriptlet
