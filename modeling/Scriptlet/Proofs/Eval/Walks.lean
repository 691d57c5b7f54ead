import Mathlib.Data.Int.ModEq
import Scriptlet.Proofs.Eval.Coming

/-!
# Walking over an array

A function that walks over an array calls itself with the rest of the array and with a state that
has taken in the first element, until no elements are ahead (`iteration`). It is defined by the body
of another function, and refers to itself by the name that is bound there (`walk`).

The walk is correct if its step keeps an invariant of the elements ahead and the state
(`takes_walker`). Nothing around the walk may bind the names of the builtins that it calls, and the
elements are counted in 64 bits, as `len` does.
-/
set_option autoImplicit false

namespace Scriptlet

open Eval

/-! ## The code of a walk -/

/-- The body of a function `iter(arr, state)` that walks over the array:
`if (len(arr) == 0) { state } else { iter(rest(arr), step); }`. -/
def iteration (state : String) (step : Expr) : Block :=
  [.expr (.conditional (.binary .equal (.call (.name "len") [.name "arr"]) (.integer 0))
    [.expr (.name state)]
    (some [.expr (.call (.name "iter") [.call (.name "rest") [.name "arr"], step])]))]

/-- Begins to walk over the array: `let iter = fn(arr, state) { .. }; iter(arr, initial);`. -/
def walk (state : String) (step initial : Expr) : Block :=
  [.define "iter" (.function ["arr", state] (iteration state step)),
    .expr (.call (.name "iter") [.name "arr", initial])]

/-! ## Calls in a walk -/

variable {before : Store} {home : ScopeId} {bindings : List (String × Value)} {site : Site}
  {id : ObjectId} {least : Nat}

def NoBuiltin (bindings : List (String × Value)) : Prop :=
  ∀ builtin : Builtin, bindings.lookup builtin.name = none

theorem NoBuiltin.cons (free : NoBuiltin bindings) {name : String}
    (other : Builtin.ofName? name = none) (value : Value) :
    NoBuiltin ((name, value) :: bindings) := by
  intro builtin
  have differs : builtin.name ≠ name := by
    rintro rfl
    cases builtin <;> cases other
  rw [List.lookup_cons, beq_eq_false_iff_ne.mpr differs, free builtin]

/-- In 64 bits only the empty array has no elements. -/
theorem ofNat_length_beq_zero {elements : List Value} (short : elements.length < 2 ^ 64) :
    (Int64.ofNat elements.length == 0) = elements.isEmpty := by
  have zero : Int64.ofNat elements.length = 0 ↔ elements.length = 0 := by
    rw [← Int64.toInt_inj, Int64.toInt_ofNat', Int64.toInt_zero, Int64.size, Int.bmod_def]
    split <;> omega
  rw [Bool.eq_iff_iff, beq_iff_eq, zero, List.length_eq_zero_iff, List.isEmpty_iff]

/-- A name for the state of a walk: none that the walk uses for something else. -/
structure IsStateName (state : String) : Prop where
  notArray : state ≠ "arr"
  notIter : state ≠ "iter"
  notBuiltin : Builtin.ofName? state = none

structure Walking (store : Store) (own : ScopeId) (bindings : List (String × Value))
    (state : String) (array : ObjectId) (elements : List Value) (total : Value) : Prop where
  shows : store.Shows own ((state, total) :: ("arr", .array array elements) :: bindings)
  free : NoBuiltin bindings
  unused : IsStateName state

namespace Walking

variable {call : Caller} {own : ScopeId} {state name : String} {array : ObjectId} {depth : Nat}
  {elements : List Value} {total value : Value}

theorem lookup_name (walking : Walking before own bindings state array elements total)
    (notState : name ≠ state) (notArray : name ≠ "arr")
    (found : bindings.lookup name = some value) :
    ComesTo before (expr call own site (.name name)) (· = value) := by
  refine comesTo_name walking.shows ?_
  simpa [List.lookup_cons, beq_eq_false_iff_ne.mpr notState, beq_eq_false_iff_ne.mpr notArray]

theorem lookup_state (walking : Walking before own bindings state array elements total) :
    ComesTo before (expr call own site (.name state)) (· = total) :=
  comesTo_name walking.shows List.lookup_cons_self

theorem lookup_builtin (walking : Walking before own bindings state array elements total)
    (builtin : Builtin) :
    List.lookup builtin.name ((state, total) :: ("arr", .array array elements) :: bindings) =
      none :=
  (walking.free.cons rfl _).cons walking.unused.notBuiltin _ builtin

theorem comesTo_ahead (walking : Walking before own bindings state array elements total)
    (builtin : Builtin) {good : Value → Prop}
    (runs : ComesTo before (builtin.run [.array array elements]) good) :
    ComesTo before (expr (apply depth) own site (.call (.name builtin.name) [.name "arr"]))
      good := by
  have found : List.lookup "arr"
      ((state, total) :: ("arr", Value.array array elements) :: bindings) =
        some (.array array elements) := by
    simp [List.lookup_cons, beq_eq_false_iff_ne.mpr walking.unused.notArray.symm]
  refine comesTo_call_builtin builtin walking.shows (walking.lookup_builtin builtin)
    (comesTo_exprs_cons (comesTo_name walking.shows found) comesTo_exprs_nil) ?_
  rintro _ ⟨_, _, rfl, rfl, rfl⟩
  exact runs

theorem comesTo_isEmpty (walking : Walking before own bindings state array elements total)
    (short : elements.length < 2 ^ 64) :
    ComesTo before (expr (apply depth) own site
        (.binary .equal (.call (.name "len") [.name "arr"]) (.integer 0)))
      (· = .boolean elements.isEmpty) := by
  refine comesTo_binary (walking.comesTo_ahead .len comesTo_len) (comesTo_integer 0) ?_
  rw [← ofNat_length_beq_zero short]
  rfl

theorem comesTo_iteration {step : Expr} {good : Value → Prop}
    (walking : Walking before own bindings state array elements total)
    (short : elements.length < 2 ^ 64) (ends : elements = [] → good total)
    (goesOn : elements ≠ [] → ∀ place, ComesTo before (expr (apply depth) own place
      (.call (.name "iter") [.call (.name "rest") [.name "arr"], step])) good) :
    ComesTo before (block (apply depth) own site 0 .null (iteration state step)) good := by
  rw [iteration, block_expr]
  refine comesTo_conditional (walking.comesTo_isEmpty short) ?_
  rw [block_expr, block_expr]
  cases elements with
  | nil =>
      rw [List.isEmpty_nil, cond_true]
      exact walking.lookup_state.mono fun _ same => same ▸ ends rfl
  | cons first others => exact goesOn (List.cons_ne_nil first others) _

end Walking

def walker (state : String) (step : Expr) (home : ScopeId) (site : Site) : Closure :=
  ⟨["arr", state], iteration state step, home, site⟩

theorem walking_entered {state : String} (step : Expr) (site : Site)
    (shows : before.Shows home bindings) (free : NoBuiltin bindings) (unused : IsStateName state)
    (array : ObjectId) (elements : List Value) (total : Value) :
    Walking (before.entered (walker state step home site) [.array array elements, total])
      before.scopes.size bindings state array elements total :=
  ⟨shows.entered (walker state step home site) [.array array elements, total], free, unused⟩

/-- The walk over an array. If the step takes in the first of the elements ahead and keeps the
invariant, the walk comes to a state of which the invariant holds with no elements ahead. -/
theorem takes_walker {state : String} {step : Expr} {keeps : List Value → Value → Prop}
    (shows : before.Shows home bindings) (free : NoBuiltin bindings) (unused : IsStateName state)
    (bound : bindings.lookup "iter" = some (.function id (walker state step home site)))
    (steps : ∀ {later own array first others total place depth}, before.Untouched later →
      Walking later own bindings state array (first :: others) total → least < depth →
      keeps (first :: others) total →
        ComesTo later (expr (apply depth) own place step) (keeps others))
    {elements : List Value} (short : elements.length < 2 ^ 64) {array : ObjectId} {total : Value}
    (holds : keeps elements total) :
    Takes before (elements.length + least + 1) (.function id (walker state step home site))
      [.array array elements, total] (keeps []) := by
  -- induction on the elements ahead: every call has a scope of its own inside the captured one,
  -- which therefore shows the same to the calls after it
  induction elements generalizing array total with
  | nil =>
      refine takes_function fun depth _ store same => ComesTo.ends ?_
      have walking := walking_entered step site (shows.untouched same) free unused array [] total
      exact walking.comesTo_iteration short (fun _ => holds) (fun more => absurd rfl more)
  | cons first others ih =>
      rw [List.length_cons] at short
      refine takes_function fun depth enough store same => ComesTo.ends ?_
      have onward := same.trans (Store.untouched_entered store (walker state step home site)
        [.array array (first :: others), total])
      have walking := walking_entered step site (shows.untouched same) free unused array
        (first :: others) total
      have deep : others.length + least + 1 ≤ depth := by
        rw [List.length_cons] at enough
        omega
      refine walking.comesTo_iteration short nofun fun _ place => ?_
      have stepped : ComesTo _ (expr (apply depth) _ (2 :: place) step) (keeps others) :=
        steps onward walking (by omega) holds
      refine comesTo_call (walking.lookup_name unused.notIter.symm (by decide) bound)
        (comesTo_exprs_cons (walking.comesTo_ahead .rest comesTo_rest)
          (comesTo_exprs_cons stepped comesTo_exprs_nil)) ?_ deep
      rintro _ ⟨_, _, ⟨rest, rfl⟩, ⟨next, _, kept, rfl, rfl⟩, rfl⟩
      exact (ih (Nat.lt_of_succ_lt short) kept).untouched onward

/-- A function whose body begins a walk over the array `arr` among its arguments. -/
theorem takes_walk {state : String} {step initial : Expr} {keeps : List Value → Value → Prop}
    {parameters : List String} {arguments : List Value} {array : ObjectId} {elements : List Value}
    {seen : List (String × Value)} (shows : before.Shows home bindings) (free : NoBuiltin seen)
    (sees : (bindArguments parameters arguments).reverse ++ bindings = seen)
    (given : seen.lookup "arr" = some (.array array elements)) (unused : IsStateName state)
    (starts : ∀ {later own function call place}, later.Shows own (("iter", function) :: seen) →
      ComesTo later (expr call own place initial) (keeps elements))
    (steps : ∀ {function later own array first others total place depth}, before.Untouched later →
      Walking later own (("iter", function) :: seen) state array (first :: others) total →
      least < depth → keeps (first :: others) total →
        ComesTo later (expr (apply depth) own place step) (keeps others))
    (short : elements.length < 2 ^ 64) :
    Takes before (elements.length + least + 2)
      (.function id ⟨parameters, walk state step initial, home, site⟩) arguments (keeps []) := by
  refine takes_define shows sees fun onward shown enough => ?_
  rw [block_expr]
  refine comesTo_call (comesTo_name shown rfl) (comesTo_exprs_cons (comesTo_name shown given)
    (comesTo_exprs_cons (starts shown) comesTo_exprs_nil)) ?_ enough
  rintro _ ⟨_, _, rfl, ⟨total, _, holds, rfl, rfl⟩, rfl⟩
  exact takes_walker shown (free.cons rfl _) unused rfl
    (fun untouched => steps (onward.trans untouched)) short holds

end Scriptlet
