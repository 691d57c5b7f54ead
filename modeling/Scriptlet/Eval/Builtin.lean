import Scriptlet.Eval
import Scriptlet.Text.Decimal

/-!
# What the builtins do

Arrays are never changed: `rest` and `push` make new ones.
-/
set_option autoImplicit false

namespace Scriptlet

inductive Builtin.Refusal where
  | wrongCount (got want : Nat)
  /-- `len` has no meaning for a value of this kind. -/
  | unsupported (kind : Value.Kind)
  | notArray (kind : Value.Kind)
deriving DecidableEq, Repr

namespace Builtin

def Refusal.text : Refusal → String
  | .wrongCount got want =>
    "wrong number of arguments. got=" ++ Text.decimal got ++ ", want=" ++ Text.decimal want
  | .unsupported kind => "argument not supported, got " ++ kind.text
  | .notArray kind => "argument must be ARRAY, got " ++ kind.text

def refuse {α : Type} (builtin : Builtin) (refusal : Refusal) : Eval α :=
  Run.raise (.failed (.builtin builtin.name refusal.text))

def onlyArgument (builtin : Builtin) : List Value → Eval Value
  | [argument] => return argument
  | arguments => builtin.refuse (.wrongCount arguments.length 1)

def elementsOf (builtin : Builtin) : Value → Eval (List Value)
  | .array _ elements => return elements
  | value => builtin.refuse (.notArray value.kind)

def measure : Value → Except Refusal Nat
  | .string text => .ok text.utf8ByteSize
  | .array _ elements => .ok elements.length
  | value => .error (.unsupported value.kind)

def run (builtin : Builtin) (arguments : List Value) : Eval Value := do
  match builtin with
  | .len =>
    let argument ← builtin.onlyArgument arguments
    match measure argument with
    | .ok size => return .integer (Int64.ofNat size)
    | .error refusal => builtin.refuse refusal
  | .first =>
    let argument ← builtin.onlyArgument arguments
    let elements ← builtin.elementsOf argument
    return elements.head?.getD .null
  | .last =>
    let argument ← builtin.onlyArgument arguments
    let elements ← builtin.elementsOf argument
    return elements.getLast?.getD .null
  | .rest =>
    let argument ← builtin.onlyArgument arguments
    match ← builtin.elementsOf argument with
    | [] => return .null
    | _ :: others => Eval.allocate fun id => .array id others
  | .push =>
    match arguments with
    | [array, value] =>
      let elements ← builtin.elementsOf array
      Eval.allocate fun id => .array id (elements ++ [value])
    | arguments => builtin.refuse (.wrongCount arguments.length 2)
  | .puts =>
    Run.modify fun store =>
      store.print (String.join (arguments.map fun argument => argument.inspect ++ "\n"))
    return .null

end Builtin

end Scriptlet
