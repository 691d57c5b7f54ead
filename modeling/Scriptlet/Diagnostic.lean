import Scriptlet.Text.Quoted
import Scriptlet.Token

/-!
# Diagnostics

What can be wrong with a source text. A diagnostic points at the first byte of a token.
-/
set_option autoImplicit false

namespace Scriptlet

open Token (Kind)

inductive Diagnostic where
  /-- A token of one kind was needed where one of another kind stands. -/
  | unexpected (expected got : Kind) (position : Nat)
  /-- No expression begins with a token of this kind. -/
  | noExpression (kind : Kind) (position : Nat)
  /-- Text that is no token stands where an expression should begin. -/
  | illegal (literal : String) (position : Nat)
  /-- The number is too large. -/
  | badInteger (literal : String) (position : Nat)
deriving DecidableEq, Repr

namespace Diagnostic

def unexpectedToken (expected : Kind) (token : Token) : Diagnostic :=
  .unexpected expected token.kind token.start

def notLeading (token : Token) : Diagnostic :=
  if token.kind = .illegal then
    .illegal token.literal token.start
  else
    .noExpression token.kind token.start

def position : Diagnostic → Nat
  | .unexpected _ _ position => position
  | .noExpression _ position => position
  | .illegal _ position => position
  | .badInteger _ position => position

def message : Diagnostic → String
  | .unexpected expected got _ =>
    "expected next token to be " ++ expected.text ++ ", got " ++ got.text ++ " instead"
  | .noExpression kind _ => "no prefix parse function for " ++ kind.text ++ " found"
  | .illegal literal _ => "illegal token " ++ Text.quoted literal
  | .badInteger literal _ => "could not parse " ++ literal ++ " as integer"

end Diagnostic

end Scriptlet
