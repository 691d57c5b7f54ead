import Scriptlet.Execution

/-!
# The console

The console answers its input line by line. In evaluation mode all lines belong to one session, so
that definitions carry over.
-/
set_option autoImplicit false

namespace Scriptlet.Console

def isBlankLine (line : String) : Bool :=
  line.toList.all Text.isBlank

def shown {α : Type} (text : α → String) (execution : Execution α) : Execution String :=
  fun store =>
    match execution store with
    | .ok value store => .ok (text value) store
    | .raised failure store => .ok failure.message store
    | .halted why => .halted why

/-- The answer to a line. An error of evaluation is an answer, too. -/
def answer (depth : Nat) (mode : Mode) (session : Session) (line : String) : Execution String :=
  match mode with
  | .eval => shown Value.inspect (Execution.evaluate depth session line)
  | .ast => shown Program.text (Execution.program line)
  | .tokens => return tokenListing line

/-- Answers lines until they end. A line that is not text is the end of the console. -/
def answerAll (depth : Nat) (mode : Mode) (session : Session) :
    List (List UInt8) → Execution Unit
  | [] => Run.modify fun store => store.print "CTRL-D\n"
  | line :: lines => do
    match Text.decode? line with
    | none => Run.raise .input
    | some text =>
      if isBlankLine text then
        answerAll depth mode session lines
      else
        let reply ← answer depth mode session text
        Run.modify fun store => store.print (reply ++ "\n")
        answerAll depth mode session lines

def run (depth : Nat) (mode : Mode) (input : List UInt8) : Execution Unit := do
  let session ← Run.step Session.start
  answerAll depth mode session (Text.lines input)

end Scriptlet.Console
