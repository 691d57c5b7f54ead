import Scriptlet.Reader.Handler

/-!
# Reading statements

A reader begins on the first token of what it reads and ends on the last one. The readers here
are given a reader for expressions. Loops take a bound on their rounds; each round passes a token
at least, so that the number of tokens bounds them all.
-/
set_option autoImplicit false

namespace Scriptlet.Reader

open Token (Kind)

def define (expr : Precedence → Reader Expr) : Reader Stmt := do
  expect .name
  let name ← current
  expect .assign
  advance
  let value ← expr .lowest
  endStatement
  return .define name.literal value

def returning (expr : Precedence → Reader Expr) : Reader Stmt := do
  advance
  let value ← expr .lowest
  endStatement
  return .returning value

def exprStatement (expr : Precedence → Reader Expr) : Reader Stmt := do
  let value ← expr .lowest
  if ← peekIs .semicolon then advance
  return .expr value

def statement (expr : Precedence → Reader Expr) : Reader Stmt := do
  let token ← current
  match token.kind with
  | .letWord => define expr
  | .returnWord => returning expr
  | _ => exprStatement expr

/-- The statements up to a closing brace. A bad one is recorded and passed over. -/
def blockRest (stmt : Reader Stmt) : Nat → Reader Block
  | 0 => Run.halt .exhausted
  | rounds + 1 => do
    let token ← current
    if token.kind = .rightBrace then
      return []
    else if token.kind = .endOfInput then
      Run.raise (.unexpectedToken .rightBrace token)
    else
      match ← Run.attempt stmt with
      | .ok first =>
        advance
        let rest ← blockRest stmt rounds
        return first :: rest
      | .error diagnostic =>
        record diagnostic
        leaveBlockStatement
        blockRest stmt rounds

def block (expr : Precedence → Reader Expr) (rounds : Nat) : Reader Block := do
  advance
  blockRest (statement expr) rounds

def programRest (stmt : Reader Stmt) : Nat → Reader Block
  | 0 => Run.halt .exhausted
  | rounds + 1 => do
    let token ← current
    if token.kind = .endOfInput then
      return []
    else
      match ← Run.attempt stmt with
      | .ok first =>
        advance
        let rest ← programRest stmt rounds
        return first :: rest
      | .error diagnostic =>
        record diagnostic
        leaveStatement
        advance
        programRest stmt rounds

end Scriptlet.Reader
