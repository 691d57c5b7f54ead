import Scriptlet.Run
import Scriptlet.Store
import Scriptlet.Value.Operation

/-!
# Evaluation

Expressions and statements are evaluated in a scope of the store, from left to right. An error or
a `return` unwinds everything up to the nearest call, where a `return` becomes the value of the
call. Evaluation follows the tree; only calls lead back to trees met before, and `apply` bounds
how deeply they are nested.

A node is evaluated at its site. The parts of a node are numbered; a statement and its expression
share one site.
-/
set_option autoImplicit false

namespace Scriptlet

inductive Unwind where
  | returned (value : Value)
  | failed (error : EvalError)

abbrev Eval := Run Store Unwind

namespace Eval

def ofResult {α : Type} : Except EvalError α → Eval α
  | .ok value => pure value
  | .error error => Run.raise (.failed error)

def allocate (object : ObjectId → Value) : Eval Value := do
  let id ← Run.step Store.issue
  return object id

/-- The value of a name: the nearest binding, or else the builtin of that name. -/
def resolve (scope : ScopeId) (name : String) : Eval Value := do
  let found ← Run.view fun store => store.lookup scope name
  match found, Builtin.ofName? name with
  | some value, _ => return value
  | none, some builtin => return .builtin builtin
  | none, none => Run.raise (.failed (.unbound name))

abbrev Caller := Value → List Value → Eval Value

mutual

def expr (call : Caller) (scope : ScopeId) (site : Site) : Expr → Eval Value
  | .name name => resolve scope name
  | .integer value => return .integer value
  | .string text => return .string text
  | .boolean value => return .boolean value
  | .array items => do
    let elements ← exprs call scope site 0 items
    allocate fun id => .array id elements
  | .hash pairs => do
    let table ← entries call scope site 0 .empty pairs
    allocate fun id => .hash id table
  | .unary op operand => do
    let operand ← expr call scope (0 :: site) operand
    ofResult (op.apply operand)
  | .binary op left right => do
    let left ← expr call scope (0 :: site) left
    let right ← expr call scope (1 :: site) right
    ofResult (op.apply left right)
  | .conditional condition consequence alternative => do
    let condition ← expr call scope (0 :: site) condition
    if condition.isTruthy then
      block call scope (1 :: site) 0 .null consequence
    else
      match alternative with
      | some alternative => block call scope (2 :: site) 0 .null alternative
      | none => return .null
  | .function parameters body => allocate fun id => .function id ⟨parameters, body, scope, site⟩
  | .call callee arguments => do
    let callee ← expr call scope (0 :: site) callee
    let arguments ← exprs call scope site 1 arguments
    call callee arguments
  | .index left index => do
    let left ← expr call scope (0 :: site) left
    let index ← expr call scope (1 :: site) index
    ofResult (left.at index)

def stmt (call : Caller) (scope : ScopeId) (site : Site) : Stmt → Eval Value
  | .define name value => do
    let value ← expr call scope site value
    Run.modify fun store => store.define scope name value
    return value
  | .returning value => do
    let value ← expr call scope site value
    Run.raise (.returned value)
  | .expr value => expr call scope site value

def exprs (call : Caller) (scope : ScopeId) (site : Site) (next : Nat) :
    List Expr → Eval (List Value)
  | [] => return []
  | item :: items => do
    let value ← expr call scope (next :: site) item
    let values ← exprs call scope site (next + 1) items
    return value :: values

/-- Evaluates the pairs of a hash in order and adds them to the table. A key is checked before
its value is evaluated. -/
def entries (call : Caller) (scope : ScopeId) (site : Site) (next : Nat) (table : Table Value) :
    List (Expr × Expr) → Eval (Table Value)
  | [] => return table
  | (key, value) :: pairs => do
    let shown ← expr call scope (next :: site) key
    let key ← ofResult shown.key
    let value ← expr call scope ((next + 1) :: site) value
    entries call scope site (next + 2) (table.insert key shown value) pairs

def block (call : Caller) (scope : ScopeId) (site : Site) (next : Nat) (last : Value) :
    List Stmt → Eval Value
  | [] => return last
  | first :: rest => do
    let value ← stmt call scope (next :: site) first
    block call scope site (next + 1) value rest

end

/-- Parameters with their arguments. Missing arguments are `null`, further ones are dropped. -/
def bindArguments : List String → List Value → List (String × Value)
  | [], _ => []
  | name :: names, [] => (name, .null) :: bindArguments names []
  | name :: names, value :: values => (name, value) :: bindArguments names values

def catchReturn (eval : Eval Value) : Eval Value :=
  fun store =>
    match eval store with
    | .raised (.returned value) store => .ok value store
    | outcome => outcome

/-- Calls a function: its body is evaluated in a new scope inside the one that the function
captured. Of parameters with the same name the last one counts. -/
def applyClosure (call : Caller) (closure : Closure) (arguments : List Value) : Eval Value := do
  let bindings := (bindArguments closure.parameters arguments).reverse
  let scope ← Run.step fun store => store.enclose closure.scope bindings
  let depth ← Run.view fun store => store.depth scope
  let event := Event.function closure.parameters.length arguments.length depth
  Run.modify fun store => store.note event
  catchReturn (block call scope closure.site 0 .null closure.body)

end Eval

end Scriptlet
