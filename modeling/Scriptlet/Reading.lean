import Scriptlet.Reader.Expression

/-!
# Reading a program

`read` gives what could be made of a source text together with all diagnostics; `parse` accepts
only texts without any.
-/
set_option autoImplicit false

namespace Scriptlet

/-- Reads a program from a list of tokens. Neither nesting nor loops go beyond their number. -/
def readTokens (handlers : Handlers) (tokens : List Token) : Outcome Cursor Diagnostic Program :=
  (Reader.program handlers tokens.length).exec (.start tokens)

/-- A program as far as it could be read, what was wrong with its text, and whether the reader
came to the end of it. -/
structure Reading where
  program : Program
  diagnostics : List Diagnostic
  complete : Bool

def Reading.ofOutcome : Outcome Cursor Diagnostic Program → Reading
  | .ok program cursor => ⟨program, cursor.recorded, true⟩
  | .raised diagnostic cursor => ⟨⟨[]⟩, cursor.recorded ++ [diagnostic], false⟩
  | .halted _ => ⟨⟨[]⟩, [], false⟩

def readWith (handlers : Handlers) (source : String) : Reading :=
  .ofOutcome (readTokens handlers (tokens source))

def read (source : String) : Reading :=
  readWith .standard source

def Reading.result (reading : Reading) : Except (List Diagnostic) Program :=
  if reading.complete && reading.diagnostics.isEmpty then
    .ok reading.program
  else
    .error reading.diagnostics

def parse (source : String) : Except (List Diagnostic) Program :=
  (read source).result

end Scriptlet
