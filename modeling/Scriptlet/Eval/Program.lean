import Scriptlet.Eval.Builtin

/-!
# Evaluating programs

`apply` closes the circle between code and calls. From outside, an error or a `return` that leaves
the code is a value like any other; a program gives up the value of its `return`.
-/
set_option autoImplicit false

namespace Scriptlet

namespace Eval

def apply : Nat → Caller
  | _, .builtin builtin, arguments => do
    Run.modify fun store => store.note (.builtin builtin.name)
    builtin.run arguments
  | 0, .function _ _, _ => Run.halt .exhausted
  | depth + 1, .function _ closure, arguments => applyClosure (apply depth) closure arguments
  | _, value, _ => Run.raise (.failed (.notCallable value.kind))

end Eval

inductive Node where
  | program (program : Program)
  | block (block : Block)
  | stmt (stmt : Stmt)
  | expr (expr : Expr)

/-- An evaluation seen from outside: it has a value in any case. -/
abbrev Evaluation := Run Store Empty

namespace Evaluation

def allocate (object : ObjectId → Value) : Evaluation Value := do
  let id ← Run.step Store.issue
  return object id

def settle (eval : Eval Value) : Evaluation (Except Unwind Value) :=
  fun store =>
    match eval store with
    | .ok value store => .ok (.ok value) store
    | .raised unwind store => .ok (.error unwind) store
    | .halted why => .halted why

def inner (eval : Eval Value) : Evaluation Value := do
  match ← settle eval with
  | .ok value => return value
  | .error (.returned value) => allocate fun id => .returned id value
  | .error (.failed error) => allocate fun id => .error id error

def unwound : Unwind → Evaluation Value
  | .returned value => return value
  | .failed error => do
    Run.modify fun store => store.note (.stopped error)
    allocate fun id => .error id error

def statements (depth : Nat) (scope : ScopeId) (site : Site) (next : Nat) (last : Value) :
    List Stmt → Evaluation Value
  | [] => return last
  | first :: rest => do
    match ← settle (Eval.stmt (Eval.apply depth) scope (next :: site) first) with
    | .ok value => statements depth scope site (next + 1) value rest
    | .error unwind => unwound unwind

def program (depth : Nat) (scope : ScopeId) (site : Site) (program : Program) :
    Evaluation Value := do
  Run.modify fun store => store.note (.program program.statements.length)
  statements depth scope site 0 .null program.statements

def node (depth : Nat) (scope : ScopeId) (site : Site) : Node → Evaluation Value
  | .program program => Evaluation.program depth scope site program
  | .block block => inner (Eval.block (Eval.apply depth) scope site 0 .null block)
  | .stmt stmt => inner (Eval.stmt (Eval.apply depth) scope site stmt)
  | .expr expr => inner (Eval.expr (Eval.apply depth) scope site expr)

def fresh (depth : Nat) (scope : ScopeId) (code : Node) : Evaluation Value := do
  let unit ← Run.step Store.issue
  node depth scope [unit] code

theorem statements_eq_block (depth : Nat) (scope : ScopeId) (site : Site) (next : Nat)
    (last : Value) (code : List Stmt) :
    statements depth scope site next last code = (do
      match ← settle (Eval.block (Eval.apply depth) scope site next last code) with
      | .ok value => return value
      | .error unwind => unwound unwind) := by
  induction code generalizing next last with
  | nil => rfl
  | cons first rest ih =>
      funext store
      simp only [statements, Eval.block, settle, Run.bind_apply, ih]
      cases Eval.stmt (Eval.apply depth) scope (next :: site) first store <;> rfl

/-- A program is evaluated as the block of its statements is. -/
theorem program_eq_block (depth : Nat) (scope : ScopeId) (site : Site) (code : Program) :
    program depth scope site code = (do
      Run.modify fun store => store.note (.program code.statements.length)
      match ← settle (Eval.block (Eval.apply depth) scope site 0 .null code.statements) with
      | .ok value => return value
      | .error unwind => unwound unwind) := by
  rw [program, statements_eq_block]

end Evaluation

end Scriptlet
