import Scriptlet.Diagnostic
import Scriptlet.Run
import Scriptlet.Token.Lexer

/-!
# Moving over tokens

A reader stands on a token, looks at the one after it, and moves forward. After an error it skips
to a place where a statement may begin; the errors passed over are recorded in the cursor.
-/
set_option autoImplicit false

namespace Scriptlet

open Token (Kind)

/-- The token under consideration, the tokens after it, and the diagnostics recorded so far. -/
structure Cursor where
  current : Token
  ahead : List Token
  recorded : List Diagnostic

abbrev Reader := Run Cursor Diagnostic

namespace Cursor

def start : List Token → Cursor
  | [] => ⟨⟨.endOfInput, "", 0, 0⟩, [], []⟩
  | token :: ahead => ⟨token, ahead, []⟩

def tokens (cursor : Cursor) : List Token :=
  cursor.current :: cursor.ahead

def moveTo (cursor : Cursor) : Token × List Token → Cursor
  | (current, ahead) => { cursor with current := current, ahead := ahead }

end Cursor

/-- Stops before the next token whose kind ends the search. -/
def skipUntilNext (stops : Kind → Bool) : Token → List Token → Token × List Token
  | current, [] => (current, [])
  | current, next :: ahead =>
    if stops next.kind then (current, next :: ahead) else skipUntilNext stops next ahead

/-- Stops on the first token, the current one included, whose kind ends the search. -/
def skipUntil (stops : Kind → Bool) : Token → List Token → Token × List Token
  | current, [] => (current, [])
  | current, next :: ahead =>
    if stops current.kind then (current, next :: ahead) else skipUntil stops next ahead

/-- Leaves a bad statement of a block: goes past the semicolon that ends it, or up to the brace
that closes the block. Braces that open on the way, `depth` of them so far, are passed with all
that they hold. -/
def skipInBlock (depth : Nat) : Token → List Token → Token × List Token
  | current, [] => (current, [])
  | current, next :: ahead =>
    match current.kind, depth with
    | .endOfInput, _ => (current, next :: ahead)
    | .semicolon, 0 => (next, ahead)
    | .rightBrace, 0 => (current, next :: ahead)
    | .rightBrace, depth + 1 => skipInBlock depth next ahead
    | .leftBrace, depth => skipInBlock (depth + 1) next ahead
    | _, depth => skipInBlock depth next ahead

namespace Reader

def current : Reader Token :=
  fun cursor => .ok cursor.current cursor

/-- The token after the current one. The end of the input is followed by itself. -/
def peek : Reader Token :=
  fun cursor =>
    match cursor.ahead with
    | next :: _ => .ok next cursor
    | [] =>
      if cursor.current.kind = .endOfInput then .ok cursor.current cursor else .halted .pastEnd

def advance : Reader Unit :=
  fun cursor =>
    match cursor.ahead with
    | next :: ahead => .ok () (cursor.moveTo (next, ahead))
    | [] => if cursor.current.kind = .endOfInput then .ok () cursor else .halted .pastEnd

def peekIs (kind : Kind) : Reader Bool := do
  let next ← peek
  return next.kind = kind

def expect (kind : Kind) : Reader Unit := do
  let next ← peek
  if next.kind = kind then
    advance
  else
    Run.raise (.unexpectedToken kind next)

def record (diagnostic : Diagnostic) : Reader Unit :=
  Run.modify fun cursor => { cursor with recorded := cursor.recorded ++ [diagnostic] }

/-- Passes over whatever follows the value of a `let` or a `return`: the reader stands on the
semicolon that ends the statement, or before the end of its block or of the input. -/
def endStatement : Reader Unit := do
  Run.modify fun cursor =>
    cursor.moveTo <|
      skipUntilNext (fun kind => kind = .semicolon || kind = .endOfInput || kind = .rightBrace)
        cursor.current cursor.ahead
  if ← peekIs .semicolon then advance

def leaveStatement : Reader Unit :=
  Run.modify fun cursor =>
    cursor.moveTo <|
      skipUntil (fun kind => kind = .semicolon || kind = .endOfInput) cursor.current cursor.ahead

def leaveBlockStatement : Reader Unit :=
  Run.modify fun cursor => cursor.moveTo (skipInBlock 0 cursor.current cursor.ahead)

end Reader

end Scriptlet
