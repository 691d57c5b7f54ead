import Scriptlet.Program
import Scriptlet.Value.Kind

/-!
# Errors of evaluation

The causes for which an evaluation stops, and their wording.
-/
set_option autoImplicit false

namespace Scriptlet

inductive EvalError where
  /-- The operator does not apply to the operand. -/
  | unknownUnary (op : UnaryOp) (operand : Value.Kind)
  /-- The operator does not apply to operands of their common kind. -/
  | unknownBinary (left : Value.Kind) (op : BinaryOp) (right : Value.Kind)
  /-- The operands are of different kinds. -/
  | mismatch (left : Value.Kind) (op : BinaryOp) (right : Value.Kind)
  /-- The name is bound in no scope and is none of the builtins. -/
  | unbound (name : String)
  | notCallable (kind : Value.Kind)
  | badKey (kind : Value.Kind)
  | notIndexable (kind : Value.Kind)
  | divisionByZero
  /-- A builtin refused its arguments. -/
  | builtin (name text : String)
deriving DecidableEq, Repr

def EvalError.message : EvalError → String
  | .unknownUnary op operand => "unknown operator: " ++ op.sign ++ operand.text
  | .unknownBinary left op right =>
    "unknown operator: " ++ left.text ++ " " ++ op.sign ++ " " ++ right.text
  | .mismatch left op right =>
    "type mismatch: " ++ left.text ++ " " ++ op.sign ++ " " ++ right.text
  | .unbound name => "identifier not found: " ++ name
  | .notCallable kind => "not a function: " ++ kind.text
  | .badKey kind => "unusable as hash key: " ++ kind.text
  | .notIndexable kind => "index operator not supported: " ++ kind.text
  | .divisionByZero => "division by zero"
  | .builtin name text => "builtin " ++ name ++ ": " ++ text

end Scriptlet
