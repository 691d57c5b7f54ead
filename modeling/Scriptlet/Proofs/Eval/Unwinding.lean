import Scriptlet.Proofs.Eval.Consecutive

/-!
# The first to unwind prevails

An evaluation context is code with a hole where the next operand is evaluated: under an operator, in
a list, in a branch, in a statement of a block, nested to any depth, but not in the body of a
function. Evaluation comes to the hole when everything to the left of it has come to a value
(`EvalContext.Leads`). If the expression in the hole then unwinds, by an error or by a `return`, so
does the whole, with the store as the hole left it: what stands to the right is not evaluated, no
definition around the hole binds, and nothing is printed (`EvalContext.Leads.raised`).

A `return` therefore goes up to a call, which takes its value for the value of the call, or to the
end of a program.
-/
set_option autoImplicit false

namespace Scriptlet

open Eval (Caller)

/-! ## Contexts -/

inductive Fragment where
  | expression
  | statement
  | block

@[reducible]
def Fragment.Code : Fragment → Type
  | .expression => Expr
  | .statement => Stmt
  | .block => Block

def Fragment.eval (call : Caller) (scope : ScopeId) (site : Site) :
    (fragment : Fragment) → fragment.Code → Eval Value
  | .expression, code => Eval.expr call scope site code
  | .statement, code => Eval.stmt call scope site code
  | .block, code => Eval.block call scope site 0 .null code

/-- Code with a hole for an expression that is evaluated as part of it. -/
inductive EvalContext : Fragment → Type where
  | hole : EvalContext .expression
  | unary (op : UnaryOp) (operand : EvalContext .expression) : EvalContext .expression
  | left (op : BinaryOp) (left : EvalContext .expression) (right : Expr) : EvalContext .expression
  | right (op : BinaryOp) (left : Expr) (right : EvalContext .expression) : EvalContext .expression
  | item (before : List Expr) (item : EvalContext .expression) (after : List Expr) :
      EvalContext .expression
  | key (before : List (Expr × Expr)) (key : EvalContext .expression) (value : Expr)
      (after : List (Expr × Expr)) : EvalContext .expression
  | entry (before : List (Expr × Expr)) (key : Expr) (value : EvalContext .expression)
      (after : List (Expr × Expr)) : EvalContext .expression
  | condition (condition : EvalContext .expression) (consequence : Block)
      (alternative : Option Block) : EvalContext .expression
  | consequence (condition : Expr) (consequence : EvalContext .block)
      (alternative : Option Block) : EvalContext .expression
  | alternative (condition : Expr) (consequence : Block) (alternative : EvalContext .block) :
      EvalContext .expression
  | callee (callee : EvalContext .expression) (arguments : List Expr) : EvalContext .expression
  | argument (callee : Expr) (before : List Expr) (argument : EvalContext .expression)
      (after : List Expr) : EvalContext .expression
  | indexed (left : EvalContext .expression) (index : Expr) : EvalContext .expression
  | index (left : Expr) (index : EvalContext .expression) : EvalContext .expression
  | define (name : String) (value : EvalContext .expression) : EvalContext .statement
  | returning (value : EvalContext .expression) : EvalContext .statement
  | expr (value : EvalContext .expression) : EvalContext .statement
  | among (before : List Stmt) (statement : EvalContext .statement) (after : List Stmt) :
      EvalContext .block

def EvalContext.fill (code : Expr) : {fragment : Fragment} → EvalContext fragment → fragment.Code
  | _, .hole => code
  | _, .unary op inner => .unary op (inner.fill code)
  | _, .left op inner other => .binary op (inner.fill code) other
  | _, .right op other inner => .binary op other (inner.fill code)
  | _, .item before inner after => .array (before ++ inner.fill code :: after)
  | _, .key before inner value after => .hash (before ++ (inner.fill code, value) :: after)
  | _, .entry before shown inner after => .hash (before ++ (shown, inner.fill code) :: after)
  | _, .condition inner block other => .conditional (inner.fill code) block other
  | _, .consequence test inner other => .conditional test (inner.fill code) other
  | _, .alternative test block inner => .conditional test block (some (inner.fill code))
  | _, .callee inner arguments => .call (inner.fill code) arguments
  | _, .argument function before inner after => .call function (before ++ inner.fill code :: after)
  | _, .indexed inner other => .index (inner.fill code) other
  | _, .index other inner => .index other (inner.fill code)
  | _, .define name inner => .define name (inner.fill code)
  | _, .returning inner => .returning (inner.fill code)
  | _, .expr inner => .expr (inner.fill code)
  | _, .among before inner after => before ++ inner.fill code :: after

/-- The evaluation of a context at a site, begun with a store, comes to its hole: `place` is the
site of the hole and `reached` the store there. Whatever stands before the hole has come to a value
on the way, and the keys of a hash among it were keys. -/
inductive EvalContext.Leads (call : Caller) (scope : ScopeId) (place : Site) (reached : Store) :
    {fragment : Fragment} → EvalContext fragment → Site → Store → Prop
  | hole : Leads call scope place reached .hole place reached
  | unary {op : UnaryOp} {operand : EvalContext .expression} {site : Site} {store : Store}
      (leads : Leads call scope place reached operand (0 :: site) store) :
      Leads call scope place reached (.unary op operand) site store
  | left {op : BinaryOp} {left : EvalContext .expression} {right : Expr} {site : Site}
      {store : Store} (leads : Leads call scope place reached left (0 :: site) store) :
      Leads call scope place reached (.left op left right) site store
  | right {op : BinaryOp} {left : Expr} {right : EvalContext .expression} {site : Site}
      {store later : Store} {value : Value}
      (ran : Eval.expr call scope (0 :: site) left store = .ok value later)
      (leads : Leads call scope place reached right (1 :: site) later) :
      Leads call scope place reached (.right op left right) site store
  | item {before after : List Expr} {item : EvalContext .expression} {site : Site}
      {store later : Store} {values : List Value}
      (ran : Eval.exprs call scope site 0 before store = .ok values later)
      (leads : Leads call scope place reached item (before.length :: site) later) :
      Leads call scope place reached (.item before item after) site store
  | key {before after : List (Expr × Expr)} {key : EvalContext .expression} {value : Expr}
      {site : Site} {store later : Store} {table : Table Value}
      (ran : Eval.entries call scope site 0 .empty before store = .ok table later)
      (leads : Leads call scope place reached key ((2 * before.length) :: site) later) :
      Leads call scope place reached (.key before key value after) site store
  | entry {before after : List (Expr × Expr)} {key : Expr} {value : EvalContext .expression}
      {site : Site} {store middle later : Store} {table : Table Value} {shown : Value}
      {known : Key} (ran : Eval.entries call scope site 0 .empty before store = .ok table middle)
      (ranKey : Eval.expr call scope ((2 * before.length) :: site) key middle = .ok shown later)
      (isKey : shown.key = .ok known)
      (leads : Leads call scope place reached value ((2 * before.length + 1) :: site) later) :
      Leads call scope place reached (.entry before key value after) site store
  | condition {condition : EvalContext .expression} {consequence : Block}
      {alternative : Option Block} {site : Site} {store : Store}
      (leads : Leads call scope place reached condition (0 :: site) store) :
      Leads call scope place reached (.condition condition consequence alternative) site store
  | consequence {condition : Expr} {consequence : EvalContext .block} {alternative : Option Block}
      {site : Site} {store later : Store} {value : Value}
      (ran : Eval.expr call scope (0 :: site) condition store = .ok value later)
      (taken : value.isTruthy = true)
      (leads : Leads call scope place reached consequence (1 :: site) later) :
      Leads call scope place reached (.consequence condition consequence alternative) site store
  | alternative {condition : Expr} {consequence : Block} {alternative : EvalContext .block}
      {site : Site} {store later : Store} {value : Value}
      (ran : Eval.expr call scope (0 :: site) condition store = .ok value later)
      (taken : value.isTruthy = false)
      (leads : Leads call scope place reached alternative (2 :: site) later) :
      Leads call scope place reached (.alternative condition consequence alternative) site store
  | callee {callee : EvalContext .expression} {arguments : List Expr} {site : Site}
      {store : Store} (leads : Leads call scope place reached callee (0 :: site) store) :
      Leads call scope place reached (.callee callee arguments) site store
  | argument {callee : Expr} {before after : List Expr} {argument : EvalContext .expression}
      {site : Site} {store middle later : Store} {value : Value} {values : List Value}
      (ranCallee : Eval.expr call scope (0 :: site) callee store = .ok value middle)
      (ran : Eval.exprs call scope site 1 before middle = .ok values later)
      (leads : Leads call scope place reached argument ((1 + before.length) :: site) later) :
      Leads call scope place reached (.argument callee before argument after) site store
  | indexed {left : EvalContext .expression} {index : Expr} {site : Site} {store : Store}
      (leads : Leads call scope place reached left (0 :: site) store) :
      Leads call scope place reached (.indexed left index) site store
  | index {left : Expr} {index : EvalContext .expression} {site : Site} {store later : Store}
      {value : Value} (ran : Eval.expr call scope (0 :: site) left store = .ok value later)
      (leads : Leads call scope place reached index (1 :: site) later) :
      Leads call scope place reached (.index left index) site store
  | define {name : String} {value : EvalContext .expression} {site : Site} {store : Store}
      (leads : Leads call scope place reached value site store) :
      Leads call scope place reached (.define name value) site store
  | returning {value : EvalContext .expression} {site : Site} {store : Store}
      (leads : Leads call scope place reached value site store) :
      Leads call scope place reached (.returning value) site store
  | expr {value : EvalContext .expression} {site : Site} {store : Store}
      (leads : Leads call scope place reached value site store) :
      Leads call scope place reached (.expr value) site store
  | among {before after : List Stmt} {statement : EvalContext .statement} {site : Site}
      {store later : Store} {value : Value}
      (ran : Eval.block call scope site 0 .null before store = .ok value later)
      (leads : Leads call scope place reached statement (before.length :: site) later) :
      Leads call scope place reached (.among before statement after) site store

/-! ## Unwinding -/

namespace Run

variable {σ ε α β : Type} {run : Run σ ε α} {next : α → Run σ ε β} {state final : σ}

theorem bind_ok {value : α} {later : σ} (ran : run state = .ok value later) :
    (run >>= next) state = next value later := by
  rw [bind_apply, ran]

theorem bind_raised {error : ε} (ran : run state = .raised error final) :
    (run >>= next) state = .raised error final := by
  rw [bind_apply, ran]

end Run

namespace Eval

variable (call : Caller) (scope : ScopeId) (site : Site)

theorem expr_conditional (condition : Expr) (consequence : Block) (alternative : Option Block) :
    expr call scope site (.conditional condition consequence alternative) =
      expr call scope (0 :: site) condition >>= fun value =>
        if value.isTruthy then block call scope (1 :: site) 0 .null consequence
        else alternative.elim (pure .null) (block call scope (2 :: site) 0 .null) := by
  cases alternative <;> rw [expr] <;> rfl

theorem exprs_append (next : Nat) (first second : List Expr) :
    exprs call scope site next (first ++ second) =
      exprs call scope site next first >>= fun values =>
        exprs call scope site (next + first.length) second >>= fun others =>
          pure (values ++ others) := by
  induction first generalizing next with
  | nil => simp [exprs]
  | cons item items ih =>
      simp only [List.cons_append, exprs, ih, bind_assoc, pure_bind, List.length_cons,
        Nat.add_assoc, Nat.add_comm 1]

theorem entries_append (next : Nat) (table : Table Value) (first second : List (Expr × Expr)) :
    entries call scope site next table (first ++ second) =
      entries call scope site next table first >>= fun table =>
        entries call scope site (next + 2 * first.length) table second := by
  induction first generalizing next table with
  | nil => rfl
  | cons pair pairs ih =>
      simp only [List.cons_append, entries, ih, bind_assoc, List.length_cons, Nat.mul_add,
        Nat.add_assoc, Nat.add_comm (2 * 1)]

end Eval

namespace EvalContext

variable {call : Caller} {scope : ScopeId} {place : Site} {reached final : Store} {code : Expr}
  {unwind : Unwind}

/-- A list of expressions unwinds with the first of them that does. -/
theorem exprs_raised {before after : List Expr} {item : Expr} {site : Site} {next : Nat}
    {store later : Store} {values : List Value}
    (ran : Eval.exprs call scope site next before store = .ok values later)
    (unwound : Eval.expr call scope ((next + before.length) :: site) item later =
      .raised unwind final) :
    Eval.exprs call scope site next (before ++ item :: after) store = .raised unwind final := by
  rw [Eval.exprs_append, Run.bind_ok ran]
  exact Run.bind_raised (Run.bind_raised unwound)

theorem entries_raised {before after : List (Expr × Expr)} {key value : Expr} {site : Site}
    {store later : Store} {table : Table Value}
    (ran : Eval.entries call scope site 0 .empty before store = .ok table later)
    (unwound : Eval.entries call scope site (2 * before.length) table ((key, value) :: after)
      later = .raised unwind final) :
    Eval.entries call scope site 0 .empty (before ++ (key, value) :: after) store =
      .raised unwind final := by
  rw [Eval.entries_append, Run.bind_ok ran, Nat.zero_add, unwound]

/-- What unwinds in the hole unwinds the whole, and leaves the store as it was there. -/
theorem Leads.raised {fragment : Fragment} {context : EvalContext fragment} {site : Site}
    {store : Store} (leads : context.Leads call scope place reached site store)
    (unwound : Eval.expr call scope place code reached = .raised unwind final) :
    fragment.eval call scope site (context.fill code) store = .raised unwind final := by
  induction leads with
  | hole => exact unwound
  | unary _ ih => exact Run.bind_raised ih
  | left _ ih => exact Run.bind_raised ih
  | right ran _ ih => exact (Run.bind_ok ran).trans (Run.bind_raised ih)
  | item ran _ ih =>
      refine Run.bind_raised (exprs_raised ran ?_)
      rwa [Nat.zero_add]
  | key ran _ ih => exact Run.bind_raised (entries_raised ran (Run.bind_raised ih))
  | entry ran ranKey isKey _ ih =>
      refine Run.bind_raised (entries_raised ran ?_)
      rw [Eval.entries, Run.bind_ok ranKey, isKey]
      exact (Run.bind_ok rfl).trans (Run.bind_raised ih)
  | condition _ ih =>
      rw [fill, Fragment.eval, Eval.expr_conditional]
      exact Run.bind_raised ih
  | consequence ran taken _ ih =>
      rw [fill, Fragment.eval, Eval.expr_conditional, Run.bind_ok ran, if_pos taken]
      exact ih
  | alternative ran taken _ ih =>
      rw [fill, Fragment.eval, Eval.expr_conditional, Run.bind_ok ran, if_neg (by simp [taken])]
      exact ih
  | callee _ ih => exact Run.bind_raised ih
  | argument ranCallee ran _ ih =>
      exact (Run.bind_ok ranCallee).trans (Run.bind_raised (exprs_raised ran ih))
  | indexed _ ih => exact Run.bind_raised ih
  | index ran _ ih => exact (Run.bind_ok ran).trans (Run.bind_raised ih)
  | define _ ih => exact Run.bind_raised ih
  | returning _ ih => exact Run.bind_raised ih
  | expr _ ih => exact ih
  | among ran _ ih =>
      rw [fill, Fragment.eval, Eval.block_append, Run.bind_ok ran, Nat.zero_add]
      exact Run.bind_raised ih

end EvalContext

/-! ## Where a return ends -/

def Fragment.node : (fragment : Fragment) → fragment.Code → Node
  | .expression, code => .expr code
  | .statement, code => .stmt code
  | .block, code => .block code

def Store.entered (store : Store) (closure : Closure) (arguments : List Value) : Store :=
  let fresh := (store.enclose closure.scope
    (Eval.bindArguments closure.parameters arguments).reverse).2
  fresh.note (.function closure.parameters.length arguments.length
    (fresh.depth store.scopes.size))

namespace Eval

variable {α β : Type}

def OnlyFails (eval : Eval α) : Prop :=
  ∀ store value final, eval store ≠ .raised (.returned value) final

theorem OnlyFails.bind {eval : Eval α} {next : α → Eval β} (fails : OnlyFails eval)
    (failsNext : ∀ value, OnlyFails (next value)) : OnlyFails (eval >>= next) := by
  intro store value final
  rw [Run.bind_apply]
  cases outcome : eval store with
  | ok result later => exact failsNext result later value final
  | raised unwind later =>
      rintro ⟨⟩
      exact fails store value final outcome
  | halted why => nofun

theorem onlyFails_pure (value : α) : OnlyFails (pure value) :=
  nofun

theorem onlyFails_refuse (builtin : Builtin) (refusal : Builtin.Refusal) :
    OnlyFails (builtin.refuse refusal : Eval α) :=
  nofun

theorem onlyFails_allocate (object : ObjectId → Value) : OnlyFails (allocate object) :=
  nofun

theorem onlyFails_modify (change : Store → Store) : OnlyFails (Run.modify change) :=
  nofun

theorem onlyFails_onlyArgument (builtin : Builtin) (arguments : List Value) :
    OnlyFails (builtin.onlyArgument arguments) := by
  unfold Builtin.onlyArgument
  split
  · exact onlyFails_pure _
  · exact onlyFails_refuse _ _

theorem onlyFails_elementsOf (builtin : Builtin) (value : Value) :
    OnlyFails (builtin.elementsOf value) := by
  unfold Builtin.elementsOf
  split
  · exact onlyFails_pure _
  · exact onlyFails_refuse _ _

theorem onlyFails_run (builtin : Builtin) (arguments : List Value) :
    OnlyFails (builtin.run arguments) := by
  cases builtin with
  | len =>
      refine (onlyFails_onlyArgument _ _).bind fun argument => ?_
      split
      · exact onlyFails_pure _
      · exact onlyFails_refuse _ _
  | first | last =>
      exact (onlyFails_onlyArgument _ _).bind fun argument =>
        (onlyFails_elementsOf _ _).bind fun elements => onlyFails_pure _
  | rest =>
      refine (onlyFails_onlyArgument _ _).bind fun argument =>
        (onlyFails_elementsOf _ _).bind fun elements => ?_
      split
      · exact onlyFails_pure _
      · exact onlyFails_allocate _
  | push =>
      simp only [Builtin.run]
      split
      · exact (onlyFails_elementsOf _ _).bind fun elements => onlyFails_allocate _
      · exact onlyFails_refuse _ _
  | puts => exact (onlyFails_modify _).bind fun _ => onlyFails_pure _

theorem onlyFails_catchReturn (eval : Eval Value) : OnlyFails (catchReturn eval) := by
  intro store value final
  unfold catchReturn
  split
  · nofun
  · rename_i passes
    exact passes value final

/-- A call never unwinds by a `return`. -/
theorem onlyFails_apply (depth : Nat) (callee : Value) (arguments : List Value) :
    OnlyFails (apply depth callee arguments) := by
  cases callee with
  | builtin builtin =>
      have fails (note : Store → Store) : OnlyFails (Run.modify note >>= fun _ =>
          builtin.run arguments) :=
        (onlyFails_modify note).bind fun _ => onlyFails_run builtin arguments
      cases depth <;> exact fails _
  | function _ closure =>
      cases depth with
      | zero => exact nofun
      | succ depth => exact fun store =>
          onlyFails_catchReturn _ (store.entered closure arguments)
  | _ => cases depth <;> exact nofun

end Eval

/-- In an evaluation context, the first error or `return` of a part that is evaluated is the error
or `return` of the whole, with the store as it was left there. A call takes the `return` of the body
for its value, so that calls unwind by errors alone, and a program gives up the value of a `return`
of its statements. Nothing else does: seen from outside, a `return` out of any other piece of code
is still one. -/
theorem first_unwind_prevails (depth : Nat) (scope : ScopeId) :
    (∀ (fragment : Fragment) (context : EvalContext fragment) (code : Expr) (site place : Site)
        (store reached final : Store) (unwind : Unwind),
      context.Leads (Eval.apply depth) scope place reached site store →
      Eval.expr (Eval.apply depth) scope place code reached = .raised unwind final →
        fragment.eval (Eval.apply depth) scope site (context.fill code) store =
          .raised unwind final) ∧
    (∀ (id : ObjectId) (closure : Closure) (arguments : List Value) (store final : Store)
        (value : Value),
      Eval.block (Eval.apply depth) store.scopes.size closure.site 0 .null closure.body
          (store.entered closure arguments) = .raised (.returned value) final →
        Eval.apply (depth + 1) (.function id closure) arguments store = .ok value final) ∧
    (∀ (callee : Value) (arguments : List Value) (store final : Store) (value : Value),
      Eval.apply depth callee arguments store ≠ .raised (.returned value) final) ∧
    (∀ (code : Block) (site : Site) (store final : Store) (value : Value),
      Eval.block (Eval.apply depth) scope site 0 .null code (store.note (.program code.length)) =
          .raised (.returned value) final →
        Evaluation.node depth scope site (.program ⟨code⟩) store = .ok value final) ∧
    ∀ (fragment : Fragment) (code : fragment.Code) (site : Site) (store final : Store)
        (value : Value),
      fragment.eval (Eval.apply depth) scope site code store = .raised (.returned value) final →
        Evaluation.node depth scope site (fragment.node code) store =
          .ok (.returned final.issued value) final.issue.2 := by
  refine ⟨fun _ context code site place store reached final unwind leads unwound =>
    leads.raised unwound, ?_, ?_, ?_, ?_⟩
  · intro id closure arguments store final value returned
    show Eval.catchReturn _ (store.entered closure arguments) = _
    rw [Eval.catchReturn, returned]
  · intro callee arguments store final value
    exact Eval.onlyFails_apply depth callee arguments store value final
  · intro code site store final value returned
    simp only [Evaluation.node, Evaluation.program_eq_block, Evaluation.settle, Run.bind_apply,
      Run.modify, returned, Evaluation.unwound, Run.pure_apply]
  · intro fragment code site store final value returned
    have inner : Evaluation.inner (fragment.eval (Eval.apply depth) scope site code) store =
        .ok (.returned final.issued value) final.issue.2 := by
      simp only [Evaluation.inner, Evaluation.settle, Run.bind_apply, returned]
      rfl
    cases fragment <;> exact inner

/-- `let a = 1; let x = [a, if (true) { return 2; }, missing]; missing` in a block: the `return`
leaves `x` unbound, and neither of the missing names is asked for. A function with such a body, a
program and a block of their own end that `return` each in its way. -/
theorem first_unwind_prevails_item :
    (∃ final,
      Fragment.block.eval (Eval.apply 0) 0 [] ((EvalContext.among [.define "a" (.integer 1)]
          (.define "x" (.item [.name "a"] .hole [.name "missing"])) [.expr (.name "missing")]).fill
        (.conditional (.boolean true) [.returning (.integer 2)] none)) (Session.start .empty).2 =
          .raised (.returned (.integer 2)) final ∧
      final.lookup 0 "a" = some (.integer 1) ∧ final.lookup 0 "x" = none) ∧
    (∃ final, Eval.apply 1 (.function 0 ⟨[], [.returning (.integer 2)], 0, [0]⟩) []
      (Session.start .empty).2 = .ok (.integer 2) final) ∧
    (∃ final, Evaluation.node 0 0 [] (.program ⟨[.returning (.integer 2)]⟩)
      (Session.start .empty).2 = .ok (.integer 2) final) ∧
    ∃ final, Evaluation.node 0 0 [] (.block [.returning (.integer 2)])
      (Session.start .empty).2 = .ok (.returned 0 (.integer 2)) final := by
  obtain ⟨context, call, _, program, piece⟩ := first_unwind_prevails 0 0
  let fresh : Store := (Session.start .empty).2
  let final : Store := fresh.define 0 "a" (.integer 1)
  have defined : Eval.block (Eval.apply 0) 0 [] 0 .null [.define "a" (.integer 1)] fresh =
      .ok (.integer 1) final := rfl
  have found : Eval.exprs (Eval.apply 0) 0 [1] 0 [.name "a"] final =
      .ok [.integer 1] final := rfl
  refine ⟨⟨final, ?_, rfl, rfl⟩, ⟨_, call 0 _ [] _ _ _ rfl⟩, ⟨_, program _ [] _ _ _ rfl⟩,
    ⟨_, piece .block [.returning (.integer 2)] [] _ _ _ rfl⟩⟩
  exact context .block _ _ [] [1, 1] fresh final final _
    (.among defined (.define (.item found .hole))) rfl

end Scriptlet
