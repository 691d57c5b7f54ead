import Scriptlet.Value

/-!
# Operators on values

What the operators of the language compute. Integers have 64 bits and wrap around.
-/
set_option autoImplicit false

namespace Scriptlet

/-- An operator on two integers. Division goes toward zero. -/
def BinaryOp.onIntegers (op : BinaryOp) (left right : Int64) : Except EvalError Value :=
  match op with
  | .add => .ok (.integer (left + right))
  | .subtract => .ok (.integer (left - right))
  | .multiply => .ok (.integer (left * right))
  | .divide => if right = 0 then .error .divisionByZero else .ok (.integer (left / right))
  | .less => .ok (.boolean (left < right))
  | .greater => .ok (.boolean (right < left))
  | .equal => .ok (.boolean (left == right))
  | .notEqual => .ok (.boolean (left != right))

/-- An operator on two values of the same kind that are neither two integers nor two strings to
be joined: only the equality of the language is left. -/
def BinaryOp.onSameKind (op : BinaryOp) (left right : Value) : Except EvalError Value :=
  match op with
  | .equal => .ok (.boolean (left.identical right))
  | .notEqual => .ok (.boolean (!left.identical right))
  | op => .error (.unknownBinary left.kind op right.kind)

def BinaryOp.apply (op : BinaryOp) (left right : Value) : Except EvalError Value :=
  match op, left, right with
  | op, .integer left, .integer right => op.onIntegers left right
  | .add, .string left, .string right => .ok (.string (left ++ right))
  | op, left, right =>
    if left.kind = right.kind then
      op.onSameKind left right
    else
      .error (.mismatch left.kind op right.kind)

def UnaryOp.apply (op : UnaryOp) (operand : Value) : Except EvalError Value :=
  match op, operand with
  | .not, operand => .ok (.boolean !operand.isTruthy)
  | .negate, .integer value => .ok (.integer (-value))
  | op, operand => .error (.unknownUnary op operand.kind)

def elementAt (elements : List Value) (position : Int64) : Value :=
  if position < 0 then .null else (elements[position.toInt.toNat]?).getD .null

def Value.at (left index : Value) : Except EvalError Value :=
  match left, index with
  | .array _ elements, .integer position => .ok (elementAt elements position)
  | .hash _ table, index => index.key.map fun key => (table.get? key).getD .null
  | left, _ => .error (.notIndexable left.kind)

end Scriptlet
