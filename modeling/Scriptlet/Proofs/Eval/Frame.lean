import Scriptlet.Eval.Program
import Mathlib.Data.List.Infix

/-!
# Evaluation writes only to the scope it runs in

Code that runs in a scope can bind names in that scope and in no other. `Store.Frame` lists what
stays the same; the names that may change are those that the code defines outside its function
literals. A call runs the body of a function in a scope of its own, which did not exist before, so
that seen from outside a call changes no scope at all (`Store.Untouched`). Calls are nested up to a
bound, and the proof is by induction on it; between two calls the induction is on the code.
-/
set_option autoImplicit false

namespace Scriptlet

/-! ## The names that code defines -/

mutual

/-- The names that an expression defines outside its function literals. -/
def Expr.defines : Expr → List String
  | .name _ => []
  | .integer _ => []
  | .string _ => []
  | .boolean _ => []
  | .array items => exprsDefine items
  | .hash pairs => pairsDefine pairs
  | .unary _ operand => operand.defines
  | .binary _ left right => left.defines ++ right.defines
  | .conditional condition consequence none => condition.defines ++ stmtsDefine consequence
  | .conditional condition consequence (some alternative) =>
    condition.defines ++ (stmtsDefine consequence ++ stmtsDefine alternative)
  | .function _ _ => []
  | .call callee arguments => callee.defines ++ exprsDefine arguments
  | .index left index => left.defines ++ index.defines

def Stmt.defines : Stmt → List String
  | .define name value => name :: value.defines
  | .returning value => value.defines
  | .expr value => value.defines

def exprsDefine : List Expr → List String
  | [] => []
  | item :: items => item.defines ++ exprsDefine items

def pairsDefine : List (Expr × Expr) → List String
  | [] => []
  | (key, value) :: pairs => key.defines ++ (value.defines ++ pairsDefine pairs)

def stmtsDefine : List Stmt → List String
  | [] => []
  | stmt :: stmts => stmt.defines ++ stmtsDefine stmts

end

def Node.defines : Node → List String
  | .program code => stmtsDefine code.statements
  | .block code => stmtsDefine code
  | .stmt code => code.defines
  | .expr code => code.defines

/-! ## Stores before and after -/

def Outcome.state? {σ ε α : Type} : Outcome σ ε α → Option σ
  | .ok _ state => some state
  | .raised _ state => some state
  | .halted _ => none

namespace Store

/-- No scope has changed, though there may be new ones, and text may have been printed. -/
structure Untouched (before later : Store) : Prop where
  size : before.scopes.size ≤ later.scopes.size
  scopes : ∀ id, id < before.scopes.size → later.scopes[id]? = before.scopes[id]?
  printed : ∃ text, later.output = before.output ++ text

/-- What stays the same while code runs in a scope and defines some of the given names there. -/
structure Frame (scope : ScopeId) (names : List String) (before later : Store) : Prop where
  size : before.scopes.size ≤ later.scopes.size
  others : ∀ id, id < before.scopes.size → id ≠ scope → later.scopes[id]? = before.scopes[id]?
  outer : later.scopes[scope]?.map Scope.outer = before.scopes[scope]?.map Scope.outer
  bound : ∀ name, (before.binding? scope name).isSome → (later.binding? scope name).isSome
  changed : ∀ name, later.binding? scope name ≠ before.binding? scope name → name ∈ names
  printed : ∃ text, later.output = before.output ++ text

variable {before middle later : Store} {scope : ScopeId} {names : List String}

theorem Untouched.refl (store : Store) : store.Untouched store :=
  ⟨le_rfl, fun _ _ => rfl, "", by simp⟩

theorem Untouched.trans (first : before.Untouched middle) (second : middle.Untouched later) :
    before.Untouched later := by
  obtain ⟨text, printed⟩ := first.printed
  obtain ⟨more, printedMore⟩ := second.printed
  refine ⟨first.size.trans second.size, fun id old => ?_, text ++ more, ?_⟩
  · rw [second.scopes id (old.trans_le first.size), first.scopes id old]
  · rw [printedMore, printed, String.append_assoc]

theorem Untouched.frame (untouched : before.Untouched later)
    (inside : scope < before.scopes.size) : before.Frame scope names later := by
  have same := untouched.scopes scope inside
  have binding (name : String) : later.binding? scope name = before.binding? scope name := by
    rw [binding?, binding?, same]
  refine ⟨untouched.size, fun id old _ => untouched.scopes id old, by rw [same], ?_, ?_,
    untouched.printed⟩
  · intro name isBound
    rw [binding]
    exact isBound
  · intro name different
    exact absurd (binding name) different

theorem Frame.trans (first : before.Frame scope names middle)
    (second : middle.Frame scope names later) : before.Frame scope names later := by
  obtain ⟨text, printed⟩ := first.printed
  obtain ⟨more, printedMore⟩ := second.printed
  refine ⟨first.size.trans second.size, ?_, second.outer.trans first.outer, ?_, ?_,
    text ++ more, ?_⟩
  · intro id old other
    rw [second.others id (old.trans_le first.size) other, first.others id old other]
  · intro name isBound
    exact second.bound name (first.bound name isBound)
  · intro name different
    by_cases same : middle.binding? scope name = before.binding? scope name
    · exact second.changed name (same ▸ different)
    · exact first.changed name same
  · rw [printedMore, printed, String.append_assoc]

theorem binding?_define (store : Store) (inside : scope < store.scopes.size) (name other : String)
    (value : Value) :
    (store.define scope name value).binding? scope other =
      if other = name then some value else store.binding? scope other := by
  simp only [define, binding?, Array.getElem?_modify, if_true, Array.getElem?_eq_getElem inside,
    Option.map_some]
  by_cases same : other = name
  · simp [same]
  · simp [same, List.lookup_cons, beq_eq_false_iff_ne.mpr same]

theorem frame_define (store : Store) (inside : scope < store.scopes.size) (name : String)
    (value : Value) (named : name ∈ names) :
    store.Frame scope names (store.define scope name value) := by
  refine ⟨by simp [define], ?_, ?_, ?_, ?_, "", by simp [define]⟩
  · intro id _ other
    simp [define, Array.getElem?_modify, Ne.symm other]
  · simp [define, Array.getElem?_modify, Array.getElem?_eq_getElem inside]
  · intro other isBound
    rw [binding?_define store inside]
    split
    · rfl
    · exact isBound
  · intro other different
    rw [binding?_define store inside] at different
    split at different
    · rename_i same
      rw [same]
      exact named
    · exact absurd rfl different

theorem untouched_enclose (store : Store) (outer : ScopeId) (bindings : List (String × Value)) :
    store.Untouched (store.enclose outer bindings).2 := by
  refine ⟨by simp [enclose], fun id old => ?_, "", by simp [enclose]⟩
  simp [enclose, Array.getElem?_push, Nat.ne_of_lt old]

theorem untouched_note (store : Store) (event : Event) : store.Untouched (store.note event) :=
  ⟨le_rfl, fun _ _ => rfl, "", by simp [note]⟩

theorem Frame.mono {fewer : List String} (frame : before.Frame scope fewer later)
    (within : fewer ⊆ names) : before.Frame scope names later :=
  { frame with changed := fun name different => within (frame.changed name different) }

theorem Frame.apart (frame : before.Frame scope names middle) (inside : scope < before.scopes.size)
    {place : ScopeId} {defined : List String} (new : before.scopes.size ≤ place)
    (next : middle.Frame place defined later) : before.Frame scope names later := by
  have same (id : ScopeId) (old : id < before.scopes.size) :
      later.scopes[id]? = middle.scopes[id]? :=
    next.others id (old.trans_le frame.size) (old.trans_le new).ne
  have binding (name : String) : later.binding? scope name = middle.binding? scope name := by
    rw [binding?, binding?, same scope inside]
  obtain ⟨text, printed⟩ := frame.printed
  obtain ⟨more, printedMore⟩ := next.printed
  refine ⟨frame.size.trans next.size, fun id old other => ?_, ?_, fun name isBound => ?_,
    fun name different => ?_, text ++ more, ?_⟩
  · rw [same id old, frame.others id old other]
  · rw [same scope inside, frame.outer]
  · rw [binding]
    exact frame.bound name isBound
  · rw [binding] at different
    exact frame.changed name different
  · rw [printedMore, printed, String.append_assoc]

/-- What runs in a scope that did not exist before changes none of the scopes that did. -/
theorem Frame.untouched {fresh : Store} (new : before.scopes.size ≤ scope)
    (added : before.Untouched fresh) (frame : fresh.Frame scope names later) :
    before.Untouched later := by
  obtain ⟨text, printed⟩ := added.printed
  obtain ⟨more, printedMore⟩ := frame.printed
  refine ⟨added.size.trans frame.size, fun id old => ?_, text ++ more, ?_⟩
  · rw [frame.others id (old.trans_le added.size) (by omega), added.scopes id old]
  · rw [printedMore, printed, String.append_assoc]

end Store

/-! ## Computations before and after -/

namespace Eval

variable {α β : Type} {scope : ScopeId} {names : List String}

def Quiet (run : Eval α) : Prop :=
  ∀ store later, (run store).state? = some later → store.Untouched later

def Framed (scope : ScopeId) (names : List String) (run : Eval α) : Prop :=
  ∀ store later, scope < store.scopes.size → (run store).state? = some later →
    store.Frame scope names later

theorem state?_bind {run : Eval α} {next : α → Eval β} {store later : Store}
    (stopped : ((run >>= next) store).state? = some later) :
    (run store).state? = some later ∨ ∃ value middle, (run store).state? = some middle ∧
      (next value middle).state? = some later := by
  rw [Run.bind_apply] at stopped
  cases outcome : run store with
  | ok value middle =>
      rw [outcome] at stopped
      exact .inr ⟨value, middle, rfl, stopped⟩
  | raised unwind middle =>
      rw [outcome] at stopped
      exact .inl stopped
  | halted why =>
      rw [outcome] at stopped
      cases stopped

theorem Quiet.framed {run : Eval α} (quiet : Quiet run) : Framed scope names run :=
  fun store later inside stopped => (quiet store later stopped).frame inside

theorem Quiet.bind {run : Eval α} {next : α → Eval β} (quiet : Quiet run)
    (quietNext : ∀ value, Quiet (next value)) : Quiet (run >>= next) := by
  intro store later stopped
  rcases state?_bind stopped with stopped | ⟨value, middle, first, stopped⟩
  · exact quiet store later stopped
  · exact (quiet store middle first).trans (quietNext value middle later stopped)

theorem Framed.bind {run : Eval α} {next : α → Eval β} (framed : Framed scope names run)
    (framedNext : ∀ value, Framed scope names (next value)) :
    Framed scope names (run >>= next) := by
  intro store later inside stopped
  rcases state?_bind stopped with stopped | ⟨value, middle, first, stopped⟩
  · exact framed store later inside stopped
  · have frame := framed store middle inside first
    exact frame.trans (framedNext value middle later (inside.trans_le frame.size) stopped)

theorem quiet_pure (value : α) : Quiet (pure value) := by
  rintro store _ ⟨⟩
  exact Store.Untouched.refl store

theorem quiet_raise (unwind : Unwind) : Quiet (Run.raise unwind : Eval α) := by
  rintro store _ ⟨⟩
  exact Store.Untouched.refl store

theorem quiet_view (see : Store → α) : Quiet (Run.view see) := by
  rintro store _ ⟨⟩
  exact Store.Untouched.refl store

theorem quiet_ofResult (result : Except EvalError α) : Quiet (ofResult result) := by
  cases result with
  | ok value => exact quiet_pure value
  | error error => exact quiet_raise _

theorem quiet_allocate (object : ObjectId → Value) : Quiet (allocate object) := by
  rintro store _ ⟨⟩
  exact ⟨le_rfl, fun _ _ => rfl, "", by simp⟩

theorem quiet_note (event : Event) : Quiet (Run.modify fun store => store.note event) := by
  rintro store _ ⟨⟩
  exact store.untouched_note event

theorem quiet_print (text : String) : Quiet (Run.modify fun store => store.print text) := by
  rintro store _ ⟨⟩
  exact ⟨le_rfl, fun _ _ => rfl, text, rfl⟩

theorem quiet_resolve (scope : ScopeId) (name : String) : Quiet (resolve scope name) := by
  refine (quiet_view _).bind fun found => ?_
  cases found with
  | some value => exact quiet_pure value
  | none =>
      cases Builtin.ofName? name with
      | some builtin => exact quiet_pure _
      | none => exact quiet_raise _

/-! ## Calls -/

theorem quiet_onlyArgument (builtin : Builtin) (arguments : List Value) :
    Quiet (builtin.onlyArgument arguments) := by
  unfold Builtin.onlyArgument
  split
  · exact quiet_pure _
  · exact quiet_raise _

theorem quiet_elementsOf (builtin : Builtin) (value : Value) :
    Quiet (builtin.elementsOf value) := by
  unfold Builtin.elementsOf
  split
  · exact quiet_pure _
  · exact quiet_raise _

theorem quiet_run (builtin : Builtin) (arguments : List Value) :
    Quiet (builtin.run arguments) := by
  cases builtin with
  | len =>
      refine (quiet_onlyArgument _ _).bind fun argument => ?_
      cases Builtin.measure argument with
      | ok size => exact quiet_pure _
      | error refusal => exact quiet_raise _
  | first =>
      exact (quiet_onlyArgument _ _).bind fun _ => (quiet_elementsOf _ _).bind fun _ => quiet_pure _
  | last =>
      exact (quiet_onlyArgument _ _).bind fun _ => (quiet_elementsOf _ _).bind fun _ => quiet_pure _
  | rest =>
      refine (quiet_onlyArgument _ _).bind fun _ => (quiet_elementsOf _ _).bind fun elements => ?_
      cases elements with
      | nil => exact quiet_pure _
      | cons first others => exact quiet_allocate _
  | push =>
      simp only [Builtin.run]
      split
      · exact (quiet_elementsOf _ _).bind fun _ => quiet_allocate _
      · exact quiet_raise _
  | puts => exact (quiet_print _).bind fun _ => quiet_pure _

/-! ## Code -/

theorem framed_define {scope : ScopeId} {names : List String} {name : String}
    (named : name ∈ names) (value : Value) :
    Framed scope names (Run.modify fun store => store.define scope name value) := by
  rintro store _ inside ⟨⟩
  exact store.frame_define inside name value named

theorem framed_catchReturn {eval : Eval Value} (framed : Framed scope names eval) :
    Framed scope names (catchReturn eval) := by
  intro store later inside stopped
  refine framed store later inside ?_
  unfold catchReturn at stopped
  split at stopped
  · rename_i outcome
    rw [outcome]
    exact stopped
  · exact stopped

section Code

set_option linter.unusedSectionVars false

variable {call : Caller} (quiet : ∀ callee arguments, Quiet (call callee arguments))

include quiet

mutual

theorem framed_expr (site : Site) (code : Expr) (within : code.defines ⊆ names) :
    Framed scope names (expr call scope site code) := by
  match code with
  | .name name => exact (quiet_resolve scope name).framed
  | .integer value => exact (quiet_pure _).framed
  | .string text => exact (quiet_pure _).framed
  | .boolean value => exact (quiet_pure _).framed
  | .array items =>
      exact (framed_exprs site 0 items within).bind fun _ => (quiet_allocate _).framed
  | .hash pairs =>
      exact (framed_entries site 0 .empty pairs within).bind fun _ => (quiet_allocate _).framed
  | .unary op operand =>
      exact (framed_expr (0 :: site) operand within).bind fun _ => (quiet_ofResult _).framed
  | .binary op left right =>
      obtain ⟨withinLeft, withinRight⟩ := List.append_subset.mp within
      exact (framed_expr (0 :: site) left withinLeft).bind fun _ =>
        (framed_expr (1 :: site) right withinRight).bind fun _ => (quiet_ofResult _).framed
  | .conditional condition consequence none =>
      obtain ⟨withinCondition, withinBlock⟩ := List.append_subset.mp within
      refine (framed_expr (0 :: site) condition withinCondition).bind fun value => ?_
      split
      · exact framed_block (1 :: site) 0 .null consequence withinBlock
      · exact (quiet_pure _).framed
  | .conditional condition consequence (some alternative) =>
      obtain ⟨withinCondition, withinBlocks⟩ := List.append_subset.mp within
      obtain ⟨withinBlock, withinOther⟩ := List.append_subset.mp withinBlocks
      refine (framed_expr (0 :: site) condition withinCondition).bind fun value => ?_
      split
      · exact framed_block (1 :: site) 0 .null consequence withinBlock
      · exact framed_block (2 :: site) 0 .null alternative withinOther
  | .function parameters body => exact (quiet_allocate _).framed
  | .call callee arguments =>
      obtain ⟨withinCallee, withinArguments⟩ := List.append_subset.mp within
      exact (framed_expr (0 :: site) callee withinCallee).bind fun _ =>
        (framed_exprs site 1 arguments withinArguments).bind fun _ => (quiet _ _).framed
  | .index left index =>
      obtain ⟨withinLeft, withinIndex⟩ := List.append_subset.mp within
      exact (framed_expr (0 :: site) left withinLeft).bind fun _ =>
        (framed_expr (1 :: site) index withinIndex).bind fun _ => (quiet_ofResult _).framed

theorem framed_stmt (site : Site) (code : Stmt) (within : code.defines ⊆ names) :
    Framed scope names (stmt call scope site code) := by
  match code with
  | .define name value =>
      obtain ⟨named, withinValue⟩ := List.cons_subset.mp within
      exact (framed_expr site value withinValue).bind fun value =>
        (framed_define named value).bind fun _ => (quiet_pure _).framed
  | .returning value =>
      exact (framed_expr site value within).bind fun _ => (quiet_raise _).framed
  | .expr value => exact framed_expr site value within

theorem framed_exprs (site : Site) (next : Nat) (items : List Expr)
    (within : exprsDefine items ⊆ names) :
    Framed scope names (exprs call scope site next items) := by
  match items with
  | [] => exact (quiet_pure _).framed
  | item :: items =>
      obtain ⟨withinItem, withinItems⟩ := List.append_subset.mp within
      exact (framed_expr (next :: site) item withinItem).bind fun _ =>
        (framed_exprs site (next + 1) items withinItems).bind fun _ => (quiet_pure _).framed

theorem framed_entries (site : Site) (next : Nat) (table : Table Value)
    (pairs : List (Expr × Expr)) (within : pairsDefine pairs ⊆ names) :
    Framed scope names (entries call scope site next table pairs) := by
  match pairs with
  | [] => exact (quiet_pure _).framed
  | (key, value) :: pairs =>
      obtain ⟨withinKey, withinRest⟩ := List.append_subset.mp within
      obtain ⟨withinValue, withinPairs⟩ := List.append_subset.mp withinRest
      exact (framed_expr (next :: site) key withinKey).bind fun _ =>
        (quiet_ofResult _).framed.bind fun _ =>
          (framed_expr ((next + 1) :: site) value withinValue).bind fun _ =>
            framed_entries site (next + 2) _ pairs withinPairs

theorem framed_block (site : Site) (next : Nat) (last : Value) (code : List Stmt)
    (within : stmtsDefine code ⊆ names) :
    Framed scope names (block call scope site next last code) := by
  match code with
  | [] => exact (quiet_pure _).framed
  | first :: rest =>
      obtain ⟨withinFirst, withinRest⟩ := List.append_subset.mp within
      exact (framed_stmt (next :: site) first withinFirst).bind fun _ =>
        framed_block site (next + 1) _ rest withinRest

end

/-- The body of a function runs in a scope that the call has made for it. -/
theorem quiet_applyClosure (closure : Closure) (arguments : List Value) :
    Quiet (applyClosure call closure arguments) := by
  intro store later stopped
  let bindings := (bindArguments closure.parameters arguments).reverse
  let fresh := (store.enclose closure.scope bindings).2
  let event := Event.function closure.parameters.length arguments.length
    (fresh.depth store.scopes.size)
  have added : store.Untouched (fresh.note event) :=
    (store.untouched_enclose closure.scope bindings).trans (fresh.untouched_note event)
  have framed : Framed store.scopes.size (stmtsDefine closure.body)
      (catchReturn (block call store.scopes.size closure.site 0 .null closure.body)) :=
    framed_catchReturn (framed_block quiet closure.site 0 .null closure.body (List.Subset.refl _))
  have inside : store.scopes.size < (fresh.note event).scopes.size := by
    simp [fresh, Store.enclose, Store.note]
  exact (framed _ _ inside stopped).untouched le_rfl added

end Code

/-- A call changes no scope that existed before it, however deeply calls are nested in it. -/
theorem quiet_apply (depth : Nat) (callee : Value) (arguments : List Value) :
    Quiet (apply depth callee arguments) := by
  induction depth generalizing callee arguments with
  | zero =>
      unfold apply
      split
      · exact (quiet_note _).bind fun _ => quiet_run _ _
      · rintro store _ ⟨⟩
      · contradiction
      · exact quiet_raise _
  | succ depth ih =>
      unfold apply
      split
      · exact (quiet_note _).bind fun _ => quiet_run _ _
      · contradiction
      · rename_i same
        cases same
        exact quiet_applyClosure ih _ _
      · exact quiet_raise _

end Eval

namespace Evaluation

open Eval (Framed)

variable {scope : ScopeId} {names : List String} {store later : Store}

theorem settle_ok {eval : Eval Value} {result : Except Unwind Value}
    (ran : settle eval store = .ok result later) : (eval store).state? = some later := by
  unfold settle at ran
  split at ran
  · rename_i outcome
    cases ran
    rw [outcome]
    rfl
  · rename_i outcome
    cases ran
    rw [outcome]
    rfl
  · cases ran

theorem untouched_allocate {object : ObjectId → Value} {value : Value}
    (ran : allocate object store = .ok value later) : store.Untouched later := by
  cases ran
  exact ⟨le_rfl, fun _ _ => rfl, "", by simp⟩

theorem frame_inner {eval : Eval Value} (framed : Framed scope names eval)
    (inside : scope < store.scopes.size) {value : Value}
    (ran : inner eval store = .ok value later) : store.Frame scope names later := by
  obtain ⟨result, middle, settled, ran⟩ := Run.bind_eq_ok ran
  have frame := framed store middle inside (settle_ok settled)
  match result with
  | .ok value =>
      cases ran
      exact frame
  | .error (.returned value) =>
      exact frame.trans ((untouched_allocate ran).frame (inside.trans_le frame.size))
  | .error (.failed error) =>
      exact frame.trans ((untouched_allocate ran).frame (inside.trans_le frame.size))

theorem frame_program {depth : Nat} {site : Site} {code : Program}
    (inside : scope < store.scopes.size) {value : Value}
    (ran : program depth scope site code store = .ok value later) :
    store.Frame scope (stmtsDefine code.statements) later := by
  have framed : Framed scope (stmtsDefine code.statements) _ :=
    Eval.framed_block (Eval.quiet_apply depth) site 0 .null code.statements (List.Subset.refl _)
  rw [program_eq_block] at ran
  obtain ⟨_, noted, announced, ran⟩ := Run.bind_eq_ok ran
  cases announced
  obtain ⟨result, middle, settled, ran⟩ := Run.bind_eq_ok ran
  have start : store.Frame scope (stmtsDefine code.statements)
      (store.note (.program code.statements.length)) :=
    (store.untouched_note _).frame inside
  have frame := start.trans (framed _ middle (inside.trans_le start.size) (settle_ok settled))
  match result with
  | .ok value =>
      cases ran
      exact frame
  | .error (.returned value) =>
      cases ran
      exact frame
  | .error (.failed error) =>
      obtain ⟨_, stopped, reported, ran⟩ := Run.bind_eq_ok ran
      cases reported
      have last := (middle.untouched_note (.stopped error)).trans (untouched_allocate ran)
      exact frame.trans (last.frame (inside.trans_le frame.size))

/-- Wherever an evaluation comes to an end, with a value, an error or a `return`, it has written to
the scope it ran in and to no other scope that was there before. -/
theorem node_writes_own_scope (depth : Nat) (scope : ScopeId) (site : Site) (code : Node)
    (store later : Store) (value : Value) (inside : scope < store.scopes.size)
    (ran : node depth scope site code store = .ok value later) :
    store.Frame scope code.defines later := by
  match code with
  | .program code => exact frame_program inside ran
  | .block code =>
      exact frame_inner (Eval.framed_block (Eval.quiet_apply depth) site 0 .null code
        (List.Subset.refl _)) inside ran
  | .stmt code =>
      exact frame_inner (Eval.framed_stmt (Eval.quiet_apply depth) site code
        (List.Subset.refl _)) inside ran
  | .expr code =>
      exact frame_inner (Eval.framed_expr (Eval.quiet_apply depth) site code
        (List.Subset.refl _)) inside ran

/-- A call that defines `y` in its own scope, in a store where the scope of the caller binds `y`
already. -/
theorem node_writes_own_scope_call :
    Store.Frame 0 ["f"] ⟨#[⟨[("y", .integer 1)], none, 0⟩], .empty, 0, "", #[]⟩
      ⟨#[⟨[("f", .function 0 ⟨[], [.define "y" (.integer 2)], 0, [0]⟩), ("y", .integer 1)], none,
          0⟩,
        ⟨[("y", .integer 2)], some 0, 0⟩], Register.empty.enter 0 1, 1, "",
        #[.program 2, .function 0 0 2]⟩ :=
  node_writes_own_scope 1 0 [] (.program ⟨[.define "f" (.function [] [.define "y" (.integer 2)]),
    .expr (.call (.name "f") [])]⟩) _ _ (.integer 2) (by decide) rfl

end Evaluation

end Scriptlet
