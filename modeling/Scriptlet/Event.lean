import Scriptlet.Diagnostic
import Scriptlet.EvalError

/-!
# Events

What a run gives out for those who watch it.
-/
set_option autoImplicit false

namespace Scriptlet

inductive Mode where
  /-- Evaluate it and show the value. -/
  | eval
  /-- Show its canonical text. -/
  | ast
  /-- List its tokens. -/
  | tokens
deriving DecidableEq, Repr

namespace Mode

def text : Mode → String
  | .eval => "eval"
  | .ast => "ast"
  | .tokens => "tokens"

def title : Mode → String
  | .eval => "Eval"
  | .ast => "Ast"
  | .tokens => "Tokens"

def all : List Mode :=
  [.eval, .ast, .tokens]

def ofText? (text : String) : Option Mode :=
  all.find? fun mode => mode.text == text

end Mode

inductive Event where
  /-- A source text of so many bytes is taken up. -/
  | executing (mode : Mode) (bytes : Nat)
  /-- The reader keeps a diagnostic. -/
  | recorded (diagnostic : Diagnostic)
  /-- A program of so many statements begins. -/
  | program (statements : Nat)
  /-- A function is called; `depth` is that of the new scope. -/
  | function (parameters arguments depth : Nat)
  /-- A builtin is called. -/
  | builtin (name : String)
  /-- A program ends with an error. -/
  | stopped (error : EvalError)
deriving DecidableEq, Repr

inductive Event.Level where
  | debug
  | trace
deriving DecidableEq, Repr

def Event.Level.text : Event.Level → String
  | .debug => "DEBUG"
  | .trace => "TRACE"

namespace Event

def level : Event → Level
  | .function _ _ _ => .trace
  | .builtin _ => .trace
  | _ => .debug

/-- A program spans the events that follow; everything else happens at one moment. -/
def isSpan : Event → Bool
  | .program _ => true
  | _ => false

def title : Event → String
  | .executing _ _ => "executing source"
  | .recorded _ => "parse error recorded"
  | .program _ => "eval_program"
  | .function _ _ _ => "applying function"
  | .builtin _ => "applying builtin"
  | .stopped _ => "evaluation stopped"

def details : Event → List (String × String)
  | .executing mode bytes => [("mode", mode.title), ("bytes", Nat.repr bytes)]
  | .recorded diagnostic =>
    [("error", diagnostic.message), ("position", Nat.repr diagnostic.position)]
  | .program statements => [("statements", Nat.repr statements)]
  | .function parameters arguments depth =>
    [("parameters", Nat.repr parameters), ("arguments", Nat.repr arguments),
      ("depth", Nat.repr depth)]
  | .builtin name => [("name", name)]
  | .stopped error => [("error", error.message)]

end Event

end Scriptlet
