import Scriptlet.Builtin
import Scriptlet.EvalError
import Scriptlet.Program.Printer
import Scriptlet.Table
import Scriptlet.Text.Quoted

/-!
# Values

The values of the language. Arrays, hashes, functions, errors and return wrappers are objects with
an identity: two of them may look alike and still be different objects.
-/
set_option autoImplicit false

namespace Scriptlet

abbrev ScopeId := Nat

abbrev ObjectId := Nat

/-- Where in the code a node stands: the way to it from the unit of code it belongs to, last step
first. Nodes at different sites are different even if they read alike. -/
abbrev Site := List Nat

/-- What a function literal makes of its surroundings: the literal itself, the scope in which it
was evaluated, and the site of its code. -/
structure Closure where
  parameters : List String
  body : Block
  scope : ScopeId
  site : Site

inductive Value where
  | integer (value : Int64)
  | boolean (value : Bool)
  | string (text : String)
  | null
  | array (id : ObjectId) (elements : List Value)
  | hash (id : ObjectId) (table : Table Value)
  | function (id : ObjectId) (closure : Closure)
  | builtin (builtin : Builtin)
  /-- An evaluation that failed, seen from outside. -/
  | error (id : ObjectId) (cause : EvalError)
  /-- A `return` that left the code under evaluation, seen from outside. -/
  | returned (id : ObjectId) (value : Value)

namespace Value

def kind : Value → Kind
  | .integer _ => .integer
  | .boolean _ => .boolean
  | .string _ => .string
  | .null => .null
  | .array _ _ => .array
  | .hash _ _ => .hash
  | .function _ _ => .function
  | .builtin _ => .builtin
  | .error _ _ => .error
  | .returned _ _ => .returned

def isTruthy : Value → Bool
  | .boolean value => value
  | .null => false
  | _ => true

def isError : Value → Bool
  | .error _ _ => true
  | _ => false

def key : Value → Except EvalError Key
  | .integer value => .ok (.integer value)
  | .boolean value => .ok (.boolean value)
  | .string text => .ok (.string text)
  | value => .error (.badKey value.kind)

mutual

def inspect : Value → String
  | .integer value => Text.decimal value.toInt
  | .boolean value => booleanText value
  | .string text => text
  | .null => "null"
  | .array _ elements => "[" ++ separated (inspectAll elements) ++ "]"
  | .hash _ ⟨entries⟩ => "\x7b" ++ separated (inspectEntries entries) ++ "\x7d"
  | .function _ closure =>
    "fn(" ++ separated closure.parameters ++ ") " ++ Block.text closure.body
  | .builtin _ => "builtin function"
  | .error _ cause => "ERROR: " ++ cause.message
  | .returned _ value => value.inspect

def inspectAll : List Value → List String
  | [] => []
  | value :: values => value.inspect :: inspectAll values

def inspectEntries : List (Table.Entry Value) → List String
  | [] => []
  | ⟨_, shown, value⟩ :: entries =>
    (shown.inspect ++ ": " ++ value.inspect) :: inspectEntries entries

end

mutual

/-- Equality of the whole structure, identities aside. Functions are equal if they come from the
same literal in the same scope. -/
def alike : Value → Value → Bool
  | .integer a, .integer b => a == b
  | .boolean a, .boolean b => a == b
  | .string a, .string b => a == b
  | .null, .null => true
  | .array _ as, .array _ bs => allAlike as bs
  | .hash _ ⟨as⟩, .hash _ ⟨bs⟩ => entriesAlike as bs
  | .function _ a, .function _ b =>
    a.parameters == b.parameters && a.site == b.site && a.scope == b.scope
  | .builtin a, .builtin b => a == b
  | .error _ a, .error _ b => a == b
  | .returned _ a, .returned _ b => a.alike b
  | _, _ => false

def allAlike : List Value → List Value → Bool
  | [], [] => true
  | a :: as, b :: bs => a.alike b && allAlike as bs
  | _, _ => false

def entriesAlike : List (Table.Entry Value) → List (Table.Entry Value) → Bool
  | [], [] => true
  | ⟨keyA, shownA, valueA⟩ :: as, ⟨keyB, shownB, valueB⟩ :: bs =>
    keyA == keyB && shownA.alike shownB && valueA.alike valueB && entriesAlike as bs
  | _, _ => false

end

/-- The equality of the language on values of one kind: scalars and builtins are compared, of
everything else only the identity counts. -/
def identical : Value → Value → Bool
  | .integer a, .integer b => a == b
  | .boolean a, .boolean b => a == b
  | .string a, .string b => a == b
  | .null, .null => true
  | .array a _, .array b _ => a == b
  | .hash a _, .hash b _ => a == b
  | .function a _, .function b _ => a == b
  | .builtin a, .builtin b => a == b
  | .error a _, .error b _ => a == b
  | .returned a _, .returned b _ => a == b
  | _, _ => false

end Value

def Closure.describe (closure : Closure) : String :=
  let parameter (name : String) : String := "Identifier \x7b name: " ++ Text.quoted name ++ " \x7d"
  "Function(Function \x7b parameters: [" ++ separated (closure.parameters.map parameter) ++
    "], body: " ++ Text.quoted (Block.text closure.body) ++ ", .. \x7d)"

def Builtin.describe (builtin : Builtin) : String :=
  "Builtin(Builtin \x7b name: " ++ Text.quoted builtin.name ++ " \x7d)"

end Scriptlet
