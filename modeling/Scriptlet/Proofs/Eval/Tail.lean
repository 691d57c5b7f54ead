import Scriptlet.Eval.Program

/-!
# Returns in tail position

Nothing is left to do in a function body behind a statement in tail position, so that a `return`
there gives up what would have been the value of the body anyway. `Block.dropTailReturns` takes all
such `return`s out of a body, also those in the branches of conditionals that are in tail position
themselves.

The two bodies end differently, one with a `return` under way and one with a value. They cannot be
told apart once the `return` has been caught, which the call does (`Eval.catchReturn`).
-/
set_option autoImplicit false

namespace Scriptlet

def Stmt.isReturning : Stmt → Bool
  | .returning _ => true
  | _ => false

mutual

/-- The expression without the `return`s that end its branches, if it is a conditional. -/
def Expr.dropTailReturns : Expr → Expr
  | .conditional condition consequence none =>
    .conditional condition (Block.dropTailReturns consequence) none
  | .conditional condition consequence (some alternative) =>
    .conditional condition (Block.dropTailReturns consequence)
      (some (Block.dropTailReturns alternative))
  | code => code

def Stmt.dropTailReturns : Stmt → Stmt
  | .returning value => .expr value.dropTailReturns
  | .expr value => .expr value.dropTailReturns
  | .define name value => .define name value

/-- The statements up to the first `return` among them, the last of them without its `return`s. -/
def Block.dropTailReturns : List Stmt → List Stmt
  | [] => []
  | first :: rest =>
    if first.isReturning || rest.isEmpty then
      [first.dropTailReturns]
    else
      first :: Block.dropTailReturns rest

end

def Block.upToReturn : List Stmt → List Stmt
  | [] => []
  | first :: rest => if first.isReturning then [first] else first :: Block.upToReturn rest

/-- Everything behind the first `return` goes, and then only the last statement is rewritten. -/
theorem Block.dropTailReturns_eq (code : List Stmt) :
    dropTailReturns code =
      (upToReturn code).dropLast ++ (upToReturn code).getLast?.toList.map Stmt.dropTailReturns := by
  induction code with
  | nil => simp [dropTailReturns, upToReturn]
  | cons first rest ih =>
      rw [dropTailReturns, upToReturn]
      by_cases returns : first.isReturning = true
      · simp [returns]
      · cases rest with
        | nil => simp [returns, upToReturn]
        | cons next rest =>
            have more : upToReturn (next :: rest) ≠ [] := by
              rw [upToReturn]
              split <;> simp
            simp [returns, ih, List.dropLast_cons_of_ne_nil more, List.getLast?_cons_of_ne_nil more]

example :
    Block.dropTailReturns [.define "a" (.integer 1), .returning (.conditional (.name "a")
      [.returning (.integer 2), .expr (.integer 3)] (some [.returning (.integer 4)])),
      .expr (.name "b")] =
    [.define "a" (.integer 1), .expr (.conditional (.name "a") [.expr (.integer 2)]
      (some [.expr (.integer 4)]))] :=
  rfl

namespace Eval

/-! ## Catching a `return` -/

variable {α : Type}

/-- After the same work, what is left to do counts only as far as its `return` is caught. -/
theorem catchReturn_bind_congr (first : Eval α) {next other : α → Eval Value}
    (same : ∀ value, catchReturn (next value) = catchReturn (other value)) :
    catchReturn (first >>= next) = catchReturn (first >>= other) := by
  funext store
  simp only [catchReturn, Run.bind_apply]
  cases first store with
  | ok value later => exact congrFun (same value) later
  | raised unwind later => rfl
  | halted why => rfl

theorem catchReturn_returning (eval : Eval Value) :
    catchReturn (eval >>= fun value => Run.raise (.returned value)) = catchReturn eval := by
  funext store
  simp only [catchReturn, Run.bind_apply]
  cases eval store with
  | ok value later => rfl
  | raised unwind later => rfl
  | halted why => rfl

/-! ## Code without its tail returns -/

variable (call : Caller) (scope : ScopeId)

/-- What stands behind a `return` is not evaluated. -/
theorem block_ending (site : Site) (next : Nat) (last : Value) {first : Stmt} {rest : List Stmt}
    (ends : (first.isReturning || rest.isEmpty) = true) :
    block call scope site next last (first :: rest) = stmt call scope (next :: site) first := by
  rw [block]
  cases first with
  | returning value =>
      rw [stmt, bind_assoc]
      rfl
  | define name value | expr value =>
      obtain rfl : rest = [] := by simpa [Stmt.isReturning] using ends
      exact bind_pure _

mutual

theorem catchReturn_expr (site : Site) (code : Expr) :
    catchReturn (expr call scope site code.dropTailReturns) =
      catchReturn (expr call scope site code) := by
  match code with
  | .conditional condition consequence none =>
      simp only [Expr.dropTailReturns, expr]
      refine catchReturn_bind_congr _ fun value => ?_
      split
      · exact catchReturn_block (1 :: site) 0 .null consequence
      · rfl
  | .conditional condition consequence (some alternative) =>
      simp only [Expr.dropTailReturns, expr]
      refine catchReturn_bind_congr _ fun value => ?_
      split
      · exact catchReturn_block (1 :: site) 0 .null consequence
      · exact catchReturn_block (2 :: site) 0 .null alternative
  | .name _ | .integer _ | .string _ | .boolean _ | .array _ | .hash _ | .unary _ _
  | .binary _ _ _ | .function _ _ | .call _ _ | .index _ _ => simp only [Expr.dropTailReturns]

theorem catchReturn_stmt (site : Site) (code : Stmt) :
    catchReturn (stmt call scope site code.dropTailReturns) =
      catchReturn (stmt call scope site code) := by
  match code with
  | .returning value =>
      simp only [Stmt.dropTailReturns, stmt]
      rw [catchReturn_returning, catchReturn_expr site value]
  | .expr value => exact catchReturn_expr site value
  | .define name value => rfl

theorem catchReturn_block (site : Site) (next : Nat) (last : Value) (code : List Stmt) :
    catchReturn (block call scope site next last (Block.dropTailReturns code)) =
      catchReturn (block call scope site next last code) := by
  match code with
  | [] => rfl
  | first :: rest =>
      rw [Block.dropTailReturns]
      split
      · rename_i ends
        rw [block_ending call scope site next last ends, block_ending _ _ _ _ _ (Bool.or_true _)]
        exact catchReturn_stmt (next :: site) first
      · rw [block, block]
        exact catchReturn_bind_congr _ fun value => catchReturn_block site (next + 1) value rest

end

end Eval

/-- A function does the same without the `return`s in tail position of its body: with any arguments,
in any store and under any bound on nested calls the two end alike, with the same value or error and
the same store, or both do not end. -/
theorem tail_returns_redundant (depth : Nat) (id other : ObjectId) (closure : Closure)
    (arguments : List Value) (store : Store) :
    Eval.apply depth (.function other
        { closure with body := Block.dropTailReturns closure.body }) arguments store =
      Eval.apply depth (.function id closure) arguments store := by
  cases depth with
  | zero => rfl
  | succ depth =>
      simp only [Eval.apply, Eval.applyClosure, Eval.catchReturn_block]

end Scriptlet
