import Scriptlet.Proofs.Eval.Tail
import Scriptlet.Proofs.Eval.Visible

/-!
# Computations that come to a value

`ComesTo before run good` says that a computation comes to an end, with a value and not with an
error or a `return`, that the value is good, and that no scope has changed by then. It says so for
all stores in which the scopes that were there before are still the same, so that it stays true
while other code runs. For this reason the rules below need no store between two steps: what holds
of the parts in one store holds of them whenever it is their turn.

Code with definitions in it changes the scope it runs in. The body of a function may do so, since
its scope is new with every call (`takes_function`, `takes_define`).
-/
set_option autoImplicit false

namespace Scriptlet.Eval

variable {α β : Type} {before later : Store} {run : Eval α} {next : α → Eval β} {good : α → Prop}
  {fits : β → Prop}

/-- As long as the scopes of a store stay the same, the computation comes to a good value and
changes no scope. -/
def ComesTo (before : Store) (run : Eval α) (good : α → Prop) : Prop :=
  ∀ store, before.Untouched store →
    ∃ value later, run store = .ok value later ∧ store.Untouched later ∧ good value

def Takes (before : Store) (least : Nat) (callee : Value) (arguments : List Value)
    (good : Value → Prop) : Prop :=
  ∀ depth, least ≤ depth → ComesTo before (apply depth callee arguments) good

/-! ## Steps -/

theorem ComesTo.mono {better : α → Prop} (comes : ComesTo before run good)
    (implies : ∀ value, good value → better value) : ComesTo before run better := by
  intro store same
  obtain ⟨value, later, ran, untouched, holds⟩ := comes store same
  exact ⟨value, later, ran, untouched, implies value holds⟩

theorem ComesTo.ends (comes : ComesTo before run good) :
    ∃ value later, run before = .ok value later ∧ good value := by
  obtain ⟨value, later, ran, _, holds⟩ := comes before (.refl before)
  exact ⟨value, later, ran, holds⟩

theorem ComesTo.untouched (comes : ComesTo before run good) (untouched : before.Untouched later) :
    ComesTo later run good :=
  fun store same => comes store (untouched.trans same)

theorem Takes.mono {least : Nat} {callee : Value} {arguments : List Value}
    {good better : Value → Prop} (takes : Takes before least callee arguments good)
    (implies : ∀ value, good value → better value) :
    Takes before least callee arguments better :=
  fun depth enough => (takes depth enough).mono implies

theorem Takes.untouched {least : Nat} {callee : Value} {arguments : List Value}
    {good : Value → Prop} (takes : Takes before least callee arguments good)
    (untouched : before.Untouched later) : Takes later least callee arguments good :=
  fun depth enough => (takes depth enough).untouched untouched

theorem ComesTo.bind (comes : ComesTo before run good)
    (goesOn : ∀ value, good value → ComesTo before (next value) fits) :
    ComesTo before (run >>= next) fits := by
  intro store same
  obtain ⟨value, middle, ran, untouched, holds⟩ := comes store same
  obtain ⟨result, later, ranNext, untouchedNext, holdsNext⟩ :=
    goesOn value holds middle (same.trans untouched)
  exact ⟨result, later, (Run.bind_ok ran).trans ranNext, untouched.trans untouchedNext, holdsNext⟩

theorem comesTo_pure {value : α} (holds : good value) : ComesTo before (pure value) good :=
  fun store _ => ⟨value, store, rfl, .refl store, holds⟩

theorem comesTo_note (event : Event) :
    ComesTo before (Run.modify fun store => store.note event) fun _ => True :=
  fun store _ => ⟨(), _, rfl, store.untouched_note event, trivial⟩

theorem comesTo_allocate (object : ObjectId → Value) :
    ComesTo before (allocate object) fun value => ∃ id, value = object id :=
  fun store _ => ⟨_, _, rfl, store.untouched_issue, _, rfl⟩

/-! ## Functions and builtins -/

section Calls

variable {builtin : Builtin} {arguments : List Value} {good : Value → Prop}

theorem takes_builtin (comes : ComesTo before (builtin.run arguments) good) :
    Takes before 0 (.builtin builtin) arguments good := by
  intro depth _
  have noted : apply depth (.builtin builtin) arguments =
      Run.modify (fun store => store.note (.builtin builtin.name)) >>= fun _ =>
        builtin.run arguments := by
    cases depth <;> rfl
  rw [noted]
  exact (comesTo_note _).bind fun _ _ => comes

/-- A function comes to what its body comes to, in the scope that the call makes for it. -/
theorem takes_function {least : Nat} {id : ObjectId} {closure : Closure}
    (body : ∀ depth, least ≤ depth → ∀ store, before.Untouched store →
      ∃ value later, block (apply depth) store.scopes.size closure.site 0 .null closure.body
        (store.entered closure arguments) = .ok value later ∧ good value) :
    Takes before (least + 1) (.function id closure) arguments good := by
  intro limit enough store same
  obtain ⟨depth, rfl⟩ := Nat.exists_eq_add_of_le' (Nat.one_le_of_lt enough)
  obtain ⟨value, later, ran, holds⟩ := body depth (Nat.le_of_succ_le_succ enough) store same
  have applied : apply (depth + 1) (.function id closure) arguments store = .ok value later := by
    show catchReturn _ (store.entered closure arguments) = _
    rw [catchReturn, ran]
  refine ⟨value, later, applied, ?_, holds⟩
  exact quiet_apply _ _ _ store later (by rw [applied]; rfl)

variable {id : ObjectId} {first value : Value} {elements others : List Value}

theorem comesTo_len :
    ComesTo before (Builtin.len.run [.array id elements])
      (· = .integer (Int64.ofNat elements.length)) :=
  comesTo_pure rfl

theorem comesTo_first :
    ComesTo before (Builtin.first.run [.array id (first :: others)]) (· = first) :=
  comesTo_pure rfl

theorem comesTo_rest :
    ComesTo before (Builtin.rest.run [.array id (first :: others)])
      fun value => ∃ id, value = .array id others :=
  comesTo_allocate fun id => .array id others

theorem comesTo_push :
    ComesTo before (Builtin.push.run [.array id elements, value])
      fun result => ∃ id, result = .array id (elements ++ [value]) :=
  comesTo_allocate fun id => .array id (elements ++ [value])

end Calls

/-! ## Code -/

section Code

variable {call : Caller} {scope : ScopeId} {site : Site} {bindings : List (String × Value)}
  {good : Value → Prop}

theorem comesTo_name {name : String} {value : Value} (shows : before.Shows scope bindings)
    (found : bindings.lookup name = some value) :
    ComesTo before (expr call scope site (.name name)) (· = value) := by
  intro store same
  have looked := ((shows.untouched same).lookup name).trans found
  refine ⟨value, store, ?_, .refl store, rfl⟩
  rw [expr, resolve, Run.bind_apply]
  simp only [Run.view, looked]
  rfl

theorem comesTo_builtin (builtin : Builtin) (shows : before.Shows scope bindings)
    (free : bindings.lookup builtin.name = none) :
    ComesTo before (expr call scope site (.name builtin.name)) (· = .builtin builtin) := by
  intro store same
  have looked := ((shows.untouched same).lookup builtin.name).trans free
  have known : Builtin.ofName? builtin.name = some builtin := by
    cases builtin <;> decide
  refine ⟨.builtin builtin, store, ?_, .refl store, rfl⟩
  rw [expr, resolve, Run.bind_apply]
  simp only [Run.view, looked, known]
  rfl

theorem comesTo_function (parameters : List String) (body : Block) :
    ComesTo before (expr call scope site (.function parameters body))
      fun value => ∃ id, value = .function id ⟨parameters, body, scope, site⟩ := by
  rw [expr]
  exact comesTo_allocate _

theorem comesTo_integer (value : Int64) :
    ComesTo before (expr call scope site (.integer value)) (· = .integer value) := by
  rw [expr]
  exact comesTo_pure rfl

theorem comesTo_exprs_nil {next : Nat} :
    ComesTo before (exprs call scope site next []) (· = []) := by
  rw [exprs]
  exact comesTo_pure rfl

theorem comesTo_exprs_cons {next : Nat} {item : Expr} {items : List Expr}
    {fits : List Value → Prop} (first : ComesTo before (expr call scope (next :: site) item) good)
    (others : ComesTo before (exprs call scope site (next + 1) items) fits) :
    ComesTo before (exprs call scope site next (item :: items))
      fun values => ∃ value rest, good value ∧ fits rest ∧ values = value :: rest := by
  rw [exprs]
  refine first.bind fun value holds => others.bind fun rest holdsRest => ?_
  exact comesTo_pure ⟨value, rest, holds, holdsRest, rfl⟩

theorem comesTo_array {items : List Expr} {fits : List Value → Prop}
    (comes : ComesTo before (exprs call scope site 0 items) fits) :
    ComesTo before (expr call scope site (.array items))
      fun value => ∃ id elements, fits elements ∧ value = .array id elements := by
  rw [expr]
  refine comes.bind fun elements holds => (comesTo_allocate _).mono ?_
  rintro _ ⟨id, rfl⟩
  exact ⟨id, elements, holds, rfl⟩

theorem comesTo_binary {op : BinaryOp} {left right : Expr} {value other result : Value}
    (comesLeft : ComesTo before (expr call scope (0 :: site) left) (· = value))
    (comesRight : ComesTo before (expr call scope (1 :: site) right) (· = other))
    (applied : op.apply value other = .ok result) :
    ComesTo before (expr call scope site (.binary op left right)) (· = result) := by
  rw [expr]
  refine comesLeft.bind ?_
  rintro _ rfl
  refine comesRight.bind ?_
  rintro _ rfl
  rw [applied]
  exact comesTo_pure rfl

theorem comesTo_conditional {condition : Expr} {consequence alternative : Block} {truth : Bool}
    (decides : ComesTo before (expr call scope (0 :: site) condition) (· = .boolean truth))
    (branch : ComesTo before (bif truth then block call scope (1 :: site) 0 .null consequence
      else block call scope (2 :: site) 0 .null alternative) good) :
    ComesTo before (expr call scope site (.conditional condition consequence (some alternative)))
      good := by
  rw [expr]
  refine decides.bind ?_
  rintro _ rfl
  cases truth <;> exact branch

theorem block_expr (next : Nat) (last : Value) (code : Expr) :
    block call scope site next last [.expr code] = expr call scope (next :: site) code := by
  rw [block_ending call scope site next last rfl, stmt]

variable {depth : Nat} {arguments : List Expr} {fits : List Value → Prop}

theorem comesTo_call {callee : Expr} {function : Value} {least : Nat}
    (comes : ComesTo before (expr (apply depth) scope (0 :: site) callee) (· = function))
    (comesArguments : ComesTo before (exprs (apply depth) scope site 1 arguments) fits)
    (takes : ∀ values, fits values → Takes before least function values good)
    (enough : least ≤ depth) :
    ComesTo before (expr (apply depth) scope site (.call callee arguments)) good := by
  rw [expr]
  refine comes.bind ?_
  rintro _ rfl
  exact comesArguments.bind fun values holds => takes values holds depth enough

theorem comesTo_call_builtin (builtin : Builtin) (shows : before.Shows scope bindings)
    (free : bindings.lookup builtin.name = none)
    (comesArguments : ComesTo before (exprs (apply depth) scope site 1 arguments) fits)
    (runs : ∀ values, fits values → ComesTo before (builtin.run values) good) :
    ComesTo before (expr (apply depth) scope site (.call (.name builtin.name) arguments)) good :=
  comesTo_call (comesTo_builtin builtin shows free) comesArguments
    (fun values holds => takes_builtin (runs values holds)) (Nat.zero_le depth)

theorem block_define_function (next : Nat) (last : Value) (name : String)
    (parameters : List String) (body rest : Block) (store : Store) :
    block call scope site next last (.define name (.function parameters body) :: rest) store =
      let function := .function store.issued ⟨parameters, body, scope, next :: site⟩
      block call scope site (next + 1) function rest
        (store.issue.2.define scope name function) := by
  rw [block, stmt, expr]
  rfl

/-- A function whose body begins with the definition of another one, which captures the scope of the
call. -/
theorem takes_define {least : Nat} {id : ObjectId} {parameters others : List String} {name : String}
    {body rest : Block} {values : List Value} {seen : List (String × Value)}
    (shows : before.Shows scope bindings)
    (sees : (bindArguments parameters values).reverse ++ bindings = seen)
    (comes : ∀ {later own object depth}, before.Untouched later →
      later.Shows own ((name, .function object ⟨others, body, own, 0 :: site⟩) :: seen) →
      least ≤ depth →
        ComesTo later (block (apply depth) own site 1
          (.function object ⟨others, body, own, 0 :: site⟩) rest) good) :
    Takes before (least + 1)
      (.function id ⟨parameters, .define name (.function others body) :: rest, scope, site⟩) values
      good := by
  refine takes_function fun depth enough store same => ?_
  let closure : Closure :=
    ⟨parameters, .define name (.function others body) :: rest, scope, site⟩
  let entered := store.entered closure values
  have shown : entered.Shows store.scopes.size seen := by
    have shown := (shows.untouched same).entered closure values
    rwa [sees] at shown
  have issued : before.Untouched entered.issue.2 :=
    same.trans ((store.untouched_entered closure values).trans entered.untouched_issue)
  -- the scope of the call is not among those that must not change
  have onward := issued.define (shown.untouched entered.untouched_issue).lt_size same.size name
    (.function entered.issued ⟨others, body, store.scopes.size, 0 :: site⟩)
  obtain ⟨value, later, ran, holds⟩ := (comes onward (shown.defineNew _ _) enough).ends
  exact ⟨value, later, (block_define_function 0 .null name others body rest entered).trans ran,
    holds⟩

end Code

end Scriptlet.Eval
