import Scriptlet.Proofs.Eval.Discipline
import Scriptlet.Proofs.Eval.Equality

/-!
# Objects keep their numbers

Arrays, hashes, functions, errors and wrapped `return`s get a number of their own when they are made
and never change. What was made so far is therefore an assignment of objects to numbers (`Objects`)
that all values of a store keep to, and evaluation only extends it (`Evaluation.accounts_fresh`).

It follows that `==` holds in a running program exactly if its two sides come to the same value
(`equal_iff_same`).
-/
set_option autoImplicit false

namespace Scriptlet

/-- The objects made so far: how many numbers are taken, and by what. -/
structure Objects where
  taken : Nat
  object : ObjectId → Value

namespace Objects

structure Extends (before later : Objects) : Prop where
  taken : before.taken ≤ later.taken
  same : ∀ id < before.taken, later.object id = before.object id

def Numbers (objects : Objects) (part : Value) : Prop :=
  ∀ id, part.identity? = some id → id < objects.taken ∧ objects.object id = part

def Knows (objects : Objects) (value : Value) : Prop :=
  value.All objects.Numbers

def KnowsAll (objects : Objects) (values : List Value) : Prop :=
  ∀ value ∈ values, objects.Knows value

def KnowsTable (objects : Objects) (table : Table Value) : Prop :=
  table.All objects.Numbers

/-- The numbers that are taken are those that the store has given out, and the store binds no other
objects. -/
structure Describes (objects : Objects) (store : Store) : Prop where
  issued : store.issued = objects.taken
  bindings : ∀ id name value, store.binding? id name = some value → objects.Knows value

def Accounts (before : Objects) (store : Store) (value : Value) : Prop :=
  ∃ objects : Objects, before.Extends objects ∧ objects.Describes store ∧ objects.Knows value

def add (objects : Objects) (value : Value) : Objects :=
  ⟨objects.taken + 1, Function.update objects.object objects.taken value⟩

variable {before middle later objects : Objects} {store : Store} {value : Value}

/-! ## More objects -/

theorem Extends.refl (objects : Objects) : objects.Extends objects :=
  ⟨le_rfl, fun _ _ => rfl⟩

theorem Extends.trans (first : before.Extends middle) (second : middle.Extends later) :
    before.Extends later :=
  ⟨first.taken.trans second.taken, fun id old =>
    (second.same id (old.trans_le first.taken)).trans (first.same id old)⟩

theorem extends_add (objects : Objects) (value : Value) : objects.Extends (objects.add value) :=
  ⟨Nat.le_succ _, fun _ old => Function.update_of_ne (Nat.ne_of_lt old) _ _⟩

theorem Numbers.mono (numbers : before.Numbers value) (wider : before.Extends later) :
    later.Numbers value := by
  intro id isId
  obtain ⟨old, same⟩ := numbers id isId
  exact ⟨old.trans_le wider.taken, (wider.same id old).trans same⟩

theorem Knows.mono (knows : before.Knows value) (wider : before.Extends later) :
    later.Knows value :=
  Value.All.mono knows fun _ numbers => numbers.mono wider

theorem KnowsAll.mono {values : List Value} (knows : before.KnowsAll values)
    (wider : before.Extends later) : later.KnowsAll values :=
  fun value isIn => (knows value isIn).mono wider

theorem KnowsTable.mono {table : Table Value} (knows : before.KnowsTable table)
    (wider : before.Extends later) : later.KnowsTable table :=
  fun entry isIn => ⟨Knows.mono (knows entry isIn).1 wider, Knows.mono (knows entry isIn).2 wider⟩

theorem Accounts.after (accounts : middle.Accounts store value) (wider : before.Extends middle) :
    before.Accounts store value := by
  obtain ⟨objects, widerMore, known⟩ := accounts
  exact ⟨objects, wider.trans widerMore, known⟩

theorem knows_plain (plain : value.isPlain = true) : objects.Knows value := by
  refine Value.all_of_isPlain plain ?_
  cases value <;> first | cases plain; done | exact nofun

/-- The value whose parts are all known but for itself is known once it has the next number. -/
theorem knows_add (isNext : value.identity? = some objects.taken)
    (inner : value.All fun part => part = value ∨ objects.Numbers part) :
    (objects.add value).Knows value := by
  intro part isIn
  rcases inner part isIn with rfl | numbers
  · intro id isId
    obtain rfl : objects.taken = id := Option.some.inj (isNext.symm.trans isId)
    exact ⟨Nat.lt_succ_self _, Function.update_self ..⟩
  · exact numbers.mono (objects.extends_add value)

/-! ## Stores -/

namespace Describes

theorem mono (describes : before.Describes store) (wider : before.Extends objects)
    {changed : Store} (issued : changed.issued = objects.taken)
    (bindings : ∀ id name, changed.binding? id name = store.binding? id name) :
    objects.Describes changed :=
  ⟨issued, fun id name value found =>
    (describes.bindings id name value (bindings id name ▸ found)).mono wider⟩

theorem of_scopes (describes : objects.Describes store) {changed : Store}
    (same : changed.scopes = store.scopes) (issued : changed.issued = store.issued) :
    objects.Describes changed :=
  describes.mono (.refl objects) (issued.trans describes.issued) (Store.binding?_of_scopes same)

theorem issue (describes : objects.Describes store) (value : Value) :
    (objects.add value).Describes store.issue.2 :=
  describes.mono (objects.extends_add value) (congrArg (· + 1) describes.issued)
    (Store.binding?_of_scopes rfl)

theorem define (describes : objects.Describes store) (scope : ScopeId) (name : String)
    (knows : objects.Knows value) : objects.Describes (store.define scope name value) := by
  refine ⟨describes.issued, fun id other bound found => ?_⟩
  rw [Store.binding?_define_eq] at found
  split at found
  · cases found
    exact knows
  · exact describes.bindings id other bound found

theorem enclose (describes : objects.Describes store) (outer : ScopeId)
    {bindings : List (String × Value)} (knows : ∀ binding ∈ bindings, objects.Knows binding.2) :
    objects.Describes (store.enclose outer bindings).2 := by
  refine ⟨describes.issued, fun id name bound found => ?_⟩
  rw [Store.binding?_enclose] at found
  split at found
  · obtain ⟨front, back, split, _⟩ := List.lookup_eq_some_iff.mp found
    exact knows (name, bound) (by simp [split])
  · exact describes.bindings id name bound found

theorem lookup (describes : objects.Describes store) {scope : ScopeId} {name : String}
    (found : store.lookup scope name = some value) : objects.Knows value := by
  obtain ⟨id, _, found⟩ := List.exists_of_findSome?_eq_some found
  exact describes.bindings id name value found

/-- An object made of what is known gets the next number. -/
theorem made (describes : objects.Describes store) {object : ObjectId → Value}
    (isNext : ∀ id, (object id).identity? = some id)
    (inner : ∀ id, (object id).All fun part => part = object id ∨ objects.Numbers part) :
    objects.Accounts store.issue.2 (object store.issued) := by
  rw [describes.issued]
  exact ⟨_, objects.extends_add _, describes.issue _, knows_add (isNext _) (inner _)⟩

theorem start (describes : objects.Describes store) :
    objects.Describes (Session.start store).2 := by
  refine ⟨describes.issued, fun id name value found => describes.bindings id name value ?_⟩
  simp only [Session.start, Store.addTop, Store.scopes_add, Store.binding?,
    Array.getElem?_push] at found
  split at found
  · cases found
  · rename_i scope known
    split at known
    · cases known
      cases found
    · rwa [Store.binding?, known]

theorem close (describes : objects.Describes store) (session : Session) :
    objects.Describes (session.close store) := by
  refine ⟨describes.issued, fun id name value found => describes.bindings id name value ?_⟩
  simp only [Session.close, Store.binding?, Store.getElem?_emptied] at found
  rw [Store.binding?]
  cases known : store.scopes[id]? with
  | none => simp [known] at found
  | some scope =>
      by_cases ends : id ∈ store.register.scopes session.root
      · simp [known, ends] at found
      · simpa [known, ends] using found

end Describes

/-! ## Runs that only make new objects -/

variable {α β : Type}

inductive Ends (good : Objects → α → Prop) (before : Objects) : Outcome Store Unwind α → Prop
  | ok {objects : Objects} {store : Store} {value : α} (wider : before.Extends objects)
      (describes : objects.Describes store) (isGood : good objects value) :
      Ends good before (.ok value store)
  | returned {objects : Objects} {store : Store} {value : Value} (wider : before.Extends objects)
      (describes : objects.Describes store) (knows : objects.Knows value) :
      Ends good before (.raised (.returned value) store)
  | failed {objects : Objects} {store : Store} {error : EvalError}
      (wider : before.Extends objects) (describes : objects.Describes store) :
      Ends good before (.raised (.failed error) store)
  | halted (why : Halt) : Ends good before (.halted why)

def Keeps (good : Objects → α → Prop) (before : Objects) (run : Eval α) : Prop :=
  ∀ objects store, before.Extends objects → objects.Describes store → Ends good objects (run store)

theorem Ends.trans {good : Objects → α → Prop} {outcome : Outcome Store Unwind α}
    (wider : before.Extends middle) (ends : Ends good middle outcome) :
    Ends good before outcome := by
  cases ends with
  | ok widerMore describes isGood => exact .ok (wider.trans widerMore) describes isGood
  | returned widerMore describes knows => exact .returned (wider.trans widerMore) describes knows
  | failed widerMore describes => exact .failed (wider.trans widerMore) describes
  | halted why => exact .halted why

namespace Keeps

variable {good : Objects → α → Prop} {goodNext : Objects → β → Prop}

theorem bind {run : Eval α} {next : α → Eval β} (keeps : Keeps good before run)
    (keepsNext : ∀ objects value, before.Extends objects → good objects value →
      Keeps goodNext objects (next value)) :
    Keeps goodNext before (run >>= next) := by
  intro objects store wider describes
  have first := keeps objects store wider describes
  rw [Run.bind_apply]
  generalize run store = outcome at first
  cases first with
  | ok widerMore describes isGood =>
      -- the rest runs where there are more objects, and what was known before still is
      have rest := keepsNext _ _ (wider.trans widerMore) isGood _ _ (.refl _) describes
      exact rest.trans widerMore
  | returned widerMore describes knows => exact .returned widerMore describes knows
  | failed widerMore describes => exact .failed widerMore describes
  | halted why => exact .halted why

theorem of_ok {run : Eval α} {later : Store} {value : α} (keeps : Keeps good objects run)
    (describes : objects.Describes store) (ran : run store = .ok value later) :
    ∃ final : Objects, objects.Extends final ∧ final.Describes later ∧ good final value := by
  have ended := keeps objects store (.refl objects) describes
  rw [ran] at ended
  cases ended with
  | ok wider describes isGood => exact ⟨_, wider, describes, isGood⟩

theorem pure {value : α} (isGood : ∀ objects, before.Extends objects → good objects value) :
    Keeps good before (Pure.pure value) :=
  fun objects _ wider describes => .ok (.refl objects) describes (isGood objects wider)

theorem known {value : Value} (knows : before.Knows value) :
    Keeps Knows before (Pure.pure value) :=
  .pure fun _ wider => knows.mono wider

theorem plain {value : Value} (plain : value.isPlain = true) :
    Keeps Knows before (Pure.pure value) :=
  .known (knows_plain plain)

theorem failure (error : EvalError) : Keeps good before (Run.raise (.failed error)) :=
  fun objects _ _ describes => .failed (.refl objects) describes

theorem returning {value : Value} (knows : before.Knows value) :
    Keeps good before (Run.raise (.returned value)) :=
  fun objects _ wider describes => .returned (.refl objects) describes (knows.mono wider)

theorem ofResult {result : Except EvalError Value}
    (knows : ∀ value, result = .ok value → before.Knows value) :
    Keeps Knows before (Eval.ofResult result) := by
  cases result with
  | ok value => exact .known (knows value rfl)
  | error error => exact .failure error

theorem modify {change : Store → Store} (scopes : ∀ store, (change store).scopes = store.scopes)
    (issued : ∀ store, (change store).issued = store.issued) :
    Keeps (fun _ _ => True) before (Run.modify change) :=
  fun objects store _ describes =>
    .ok (.refl objects) (describes.of_scopes (scopes store) (issued store)) trivial

theorem note (event : Event) :
    Keeps (fun _ _ => True) before (Run.modify fun store => store.note event) :=
  modify (fun _ => rfl) fun _ => rfl

theorem print (text : String) :
    Keeps (fun _ _ => True) before (Run.modify fun store => store.print text) :=
  modify (fun _ => rfl) fun _ => rfl

/-- This is where objects are made. -/
theorem allocate {object : ObjectId → Value} (isNext : ∀ id, (object id).identity? = some id)
    (inner : ∀ id, (object id).All fun part => part = object id ∨ before.Numbers part) :
    Keeps Knows before (Eval.allocate object) := by
  intro objects store wider describes
  obtain ⟨later, widerMore, describesLater, knows⟩ := describes.made isNext fun id =>
    Value.All.mono (inner id) fun _ isPart => isPart.imp_right fun numbers => numbers.mono wider
  exact .ok widerMore describesLater knows

theorem array {elements : List Value} (knows : before.KnowsAll elements) :
    Keeps Knows before (Eval.allocate fun id => .array id elements) :=
  allocate (fun _ => rfl) fun _ => Value.all_array.mpr
    ⟨.inl rfl, fun element isIn => Value.All.mono (knows element isIn) fun _ => .inr⟩

theorem hash {table : Table Value} (knows : before.KnowsTable table) :
    Keeps Knows before (Eval.allocate fun id => .hash id table) :=
  allocate (fun _ => rfl) fun _ => Value.all_hash.mpr
    ⟨.inl rfl, fun entry isIn => ⟨Value.All.mono (knows entry isIn).1 fun _ => .inr,
      Value.All.mono (knows entry isIn).2 fun _ => .inr⟩⟩

theorem resolve (scope : ScopeId) (name : String) :
    Keeps Knows before (Eval.resolve scope name) := by
  intro objects store _ describes
  simp only [Eval.resolve, Run.bind_apply, Run.view]
  cases bound : store.lookup scope name with
  | some value => exact .ok (.refl objects) describes (describes.lookup bound)
  | none =>
      cases Builtin.ofName? name with
      | some builtin => exact .ok (.refl objects) describes (knows_plain rfl)
      | none => exact .failed (.refl objects) describes

theorem catchReturn {eval : Eval Value} (keeps : Keeps Knows before eval) :
    Keeps Knows before (Eval.catchReturn eval) := by
  intro objects store wider describes
  have ended := keeps objects store wider describes
  unfold Eval.catchReturn
  generalize eval store = outcome at ended
  cases ended with
  | ok wider describes knows | returned wider describes knows => exact .ok wider describes knows
  | failed wider describes => exact .failed wider describes
  | halted why => exact .halted why

/-! ### Builtins -/

theorem onlyArgument (builtin : Builtin) {arguments : List Value}
    (knows : before.KnowsAll arguments) : Keeps Knows before (builtin.onlyArgument arguments) := by
  unfold Builtin.onlyArgument
  split
  · exact .known (knows _ (List.mem_singleton_self _))
  · exact .failure _

theorem elementsOf (builtin : Builtin) {value : Value} (knows : before.Knows value) :
    Keeps KnowsAll before (builtin.elementsOf value) := by
  unfold Builtin.elementsOf
  split
  · exact .pure fun _ wider => KnowsAll.mono (Value.all_array.mp knows).2 wider
  · exact .failure _

theorem onElements (builtin : Builtin) {arguments : List Value}
    (knows : before.KnowsAll arguments) {next : List Value → Eval Value}
    (keepsNext : ∀ objects elements, KnowsAll objects elements →
      Keeps Knows objects (next elements)) :
    Keeps Knows before
      (builtin.onlyArgument arguments >>= fun argument =>
        builtin.elementsOf argument >>= next) := by
  refine (onlyArgument builtin knows).bind fun _ argument _ knowsArgument => ?_
  refine (elementsOf builtin knowsArgument).bind fun _ elements _ knowsAll => ?_
  exact keepsNext _ elements knowsAll

theorem found {found : Option Value} (knows : ∀ value, found = some value → before.Knows value) :
    Keeps Knows before (Pure.pure (found.getD .null)) :=
  .known (Value.all_getD nofun knows)

theorem run (builtin : Builtin) {arguments : List Value} (knows : before.KnowsAll arguments) :
    Keeps Knows before (builtin.run arguments) := by
  cases builtin with
  | len =>
      refine (onlyArgument _ knows).bind fun _ argument _ _ => ?_
      cases Builtin.measure argument with
      | ok size => exact .plain rfl
      | error refusal => exact .failure _
  | first =>
      refine onElements .first knows fun _ elements knowsAll => ?_
      exact found fun value isFirst => knowsAll value (List.mem_of_mem_head? isFirst)
  | last =>
      refine onElements .last knows fun _ elements knowsAll => ?_
      exact found fun value isLast => knowsAll value (List.mem_of_getLast? isLast)
  | rest =>
      refine onElements .rest knows fun _ elements knowsAll => ?_
      cases elements with
      | nil => exact .plain rfl
      | cons first others => exact array (List.forall_mem_cons.mp knowsAll).2
  | push =>
      simp only [Builtin.run]
      split
      · obtain ⟨knowsArray, knowsValue, _⟩ := List.forall_mem_cons.mp knows |>.imp_right
          List.forall_mem_cons.mp
        refine (elementsOf _ knowsArray).bind fun _ elements wider knowsAll => ?_
        refine array (List.forall_mem_append.mpr ⟨knowsAll, ?_⟩)
        exact List.forall_mem_singleton.mpr (Knows.mono knowsValue wider)
      · exact .failure _
  | puts =>
      refine (print _).bind fun _ _ _ _ => ?_
      exact .plain rfl

/-! ### Code -/

section Code

set_option linter.unusedSectionVars false

variable {call : Eval.Caller} (calls : ∀ {before : Objects} {callee : Value}
  {arguments : List Value}, before.Knows callee → before.KnowsAll arguments →
  Keeps Knows before (call callee arguments))

include calls

mutual

theorem expr {before : Objects} (scope : ScopeId) (site : Site) (code : Expr) :
    Keeps Knows before (Eval.expr call scope site code) := by
  match code with
  | .name name => exact resolve scope name
  | .integer value => exact .plain rfl
  | .string text => exact .plain rfl
  | .boolean value => exact .plain rfl
  | .array items => exact (exprs scope site 0 items).bind fun _ _ _ knows => array knows
  | .hash pairs =>
      exact (entries scope site 0 .empty Table.all_empty pairs).bind fun _ _ _ knows => hash knows
  | .unary op operand =>
      refine (expr scope (0 :: site) operand).bind fun _ value _ _ => ofResult ?_
      exact fun result applied => knows_plain (UnaryOp.apply_isPlain applied)
  | .binary op left right =>
      refine (expr scope (0 :: site) left).bind fun _ value _ _ => ?_
      refine (expr scope (1 :: site) right).bind fun _ other _ _ => ofResult ?_
      exact fun result applied => knows_plain (BinaryOp.apply_isPlain applied)
  | .conditional condition consequence none =>
      refine (expr scope (0 :: site) condition).bind fun _ value _ _ => ?_
      split
      · exact block scope (1 :: site) 0 .null (knows_plain rfl) consequence
      · exact .plain rfl
  | .conditional condition consequence (some alternative) =>
      refine (expr scope (0 :: site) condition).bind fun _ value _ _ => ?_
      split
      · exact block scope (1 :: site) 0 .null (knows_plain rfl) consequence
      · exact block scope (2 :: site) 0 .null (knows_plain rfl) alternative
  | .function parameters body =>
      exact allocate (fun _ => rfl) fun _ => Value.all_function (.inl rfl)
  | .call callee arguments =>
      refine (expr scope (0 :: site) callee).bind fun _ value _ knows => ?_
      refine (exprs scope site 1 arguments).bind fun _ values wider knowsAll => ?_
      exact calls (Knows.mono knows wider) knowsAll
  | .index left index =>
      refine (expr scope (0 :: site) left).bind fun _ value _ knows => ?_
      refine (expr scope (1 :: site) index).bind fun _ position wider _ => ?_
      exact ofResult fun _ found => Value.All.at nofun (Knows.mono knows wider) found

theorem stmt {before : Objects} (scope : ScopeId) (site : Site) (code : Stmt) :
    Keeps Knows before (Eval.stmt call scope site code) := by
  match code with
  | .define name code =>
      refine (expr scope site code).bind fun _ value _ knows => ?_
      intro objects store wider describes
      have knowsHere := Knows.mono knows wider
      exact .ok (.refl objects) (describes.define scope name knowsHere) knowsHere
  | .returning code => exact (expr scope site code).bind fun _ _ _ knows => returning knows
  | .expr code => exact expr scope site code

theorem exprs {before : Objects} (scope : ScopeId) (site : Site) (next : Nat) (items : List Expr) :
    Keeps KnowsAll before (Eval.exprs call scope site next items) := by
  match items with
  | [] => exact .pure fun _ _ => by simp [KnowsAll]
  | item :: items =>
      refine (expr scope (next :: site) item).bind fun _ value _ knows => ?_
      refine (exprs scope site (next + 1) items).bind fun _ values wider knowsAll => ?_
      refine .pure fun _ widerMore => KnowsAll.mono ?_ widerMore
      exact List.forall_mem_cons.mpr ⟨Knows.mono knows wider, knowsAll⟩

theorem entries {before : Objects} (scope : ScopeId) (site : Site) (next : Nat)
    (table : Table Value) (knows : before.KnowsTable table) (pairs : List (Expr × Expr)) :
    Keeps KnowsTable before (Eval.entries call scope site next table pairs) := by
  match pairs with
  | [] => exact .pure fun _ wider => knows.mono wider
  | (key, value) :: pairs =>
      refine (expr scope (next :: site) key).bind fun _ shown wider knowsKey => ?_
      cases shown.key with
      | error error => exact .failure error
      | ok key =>
          refine (expr scope ((next + 1) :: site) value).bind
            fun _ stored widerMore knowsValue => ?_
          refine entries scope site (next + 2) _ ?_ pairs
          exact Table.All.insert (knows.mono (wider.trans widerMore)) key
            (Knows.mono knowsKey widerMore) knowsValue

theorem block {before : Objects} (scope : ScopeId) (site : Site) (next : Nat) (last : Value)
    (knows : before.Knows last) (code : List Stmt) :
    Keeps Knows before (Eval.block call scope site next last code) := by
  match code with
  | [] => exact .known knows
  | first :: rest =>
      refine (stmt scope (next :: site) first).bind fun _ value _ knows => ?_
      exact block scope site (next + 1) value knows rest

end

theorem applyClosure (closure : Closure) {arguments : List Value}
    (knows : before.KnowsAll arguments) :
    Keeps Knows before (Eval.applyClosure call closure arguments) := by
  intro objects store wider describes
  let bindings := (Eval.bindArguments closure.parameters arguments).reverse
  let fresh := (store.enclose closure.scope bindings).2
  let event := Event.function closure.parameters.length arguments.length
    (fresh.depth store.scopes.size)
  have bound : ∀ binding ∈ bindings, objects.Knows binding.2 := by
    have all : ∀ binding ∈ Eval.bindArguments closure.parameters arguments,
        objects.Knows binding.2 :=
      Eval.all_bindArguments nofun closure.parameters (knows.mono wider)
    exact fun binding isBound => all binding (List.mem_reverse.mp isBound)
  have describesInside : objects.Describes (fresh.note event) :=
    (describes.enclose closure.scope bound).of_scopes rfl rfl
  have body : Keeps Knows objects _ := (block calls store.scopes.size closure.site 0 .null
    (knows_plain rfl) closure.body).catchReturn
  exact body objects (fresh.note event) (.refl objects) describesInside

end Code

theorem builtin (builtin : Builtin) {arguments : List Value} (knows : before.KnowsAll arguments)
    (depth : Nat) : Keeps Knows before (Eval.apply depth (.builtin builtin) arguments) := by
  unfold Eval.apply
  exact (note _).bind fun _ _ wider _ => run builtin (knows.mono wider)

theorem apply (depth : Nat) {before : Objects} {callee : Value} {arguments : List Value}
    (knows : before.Knows callee) (knowsAll : before.KnowsAll arguments) :
    Keeps Knows before (Eval.apply depth callee arguments) := by
  induction depth generalizing before callee arguments with
  | zero =>
      cases callee with
      | builtin which => exact builtin which knowsAll 0
      | function id closure => exact fun _ _ _ _ => .halted .exhausted
      | _ => exact .failure _
  | succ depth ih =>
      cases callee with
      | builtin which => exact builtin which knowsAll (depth + 1)
      | function id closure => exact applyClosure ih closure knowsAll
      | _ => exact .failure _

end Keeps

end Objects

/-! ## Seen from outside -/

namespace Evaluation

open Objects

variable {objects : Objects} {store later : Store} {value : Value}

def KnownTo (objects : Objects) : Except Unwind Value → Prop
  | .ok value => objects.Knows value
  | .error (.returned value) => objects.Knows value
  | .error (.failed _) => True

theorem known_settle (describes : objects.Describes store) {eval : Eval Value}
    (keeps : Keeps Knows objects eval) {result : Except Unwind Value}
    (ran : settle eval store = .ok result later) :
    ∃ final : Objects, objects.Extends final ∧ final.Describes later ∧ KnownTo final result := by
  have ended := keeps objects store (.refl objects) describes
  unfold settle at ran
  generalize eval store = outcome at ended ran
  cases ended with
  | ok wider describes knows | returned wider describes knows =>
      cases ran
      exact ⟨_, wider, describes, knows⟩
  | failed wider describes =>
      cases ran
      exact ⟨_, wider, describes, trivial⟩
  | halted why => cases ran

theorem accounts_error (describes : objects.Describes store) (error : EvalError) :
    objects.Accounts store.issue.2 (.error store.issued error) := by
  have made (id : ObjectId) : (Value.error id error).All fun part =>
      part = .error id error ∨ objects.Numbers part :=
    List.forall_mem_singleton.mpr (.inl rfl)
  exact describes.made (fun _ => rfl) made

theorem accounts_returned (describes : objects.Describes store) (knows : objects.Knows value) :
    objects.Accounts store.issue.2 (.returned store.issued value) := by
  have made (id : ObjectId) : (Value.returned id value).All fun part =>
      part = .returned id value ∨ objects.Numbers part :=
    List.forall_mem_cons.mpr ⟨.inl rfl, Value.All.mono knows fun _ => .inr⟩
  exact describes.made (fun _ => rfl) made

theorem accounts_inner (describes : objects.Describes store) {eval : Eval Value}
    (keeps : Keeps Knows objects eval) (ran : inner eval store = .ok value later) :
    objects.Accounts later value := by
  obtain ⟨result, middle, settled, ran⟩ := Run.bind_eq_ok ran
  obtain ⟨final, wider, describes, knows⟩ := known_settle describes keeps settled
  match result with
  | .ok value =>
      cases ran
      exact ⟨final, wider, describes, knows⟩
  | .error (.returned inner) =>
      cases ran
      exact (accounts_returned describes knows).after wider
  | .error (.failed error) =>
      cases ran
      exact (accounts_error describes error).after wider

theorem accounts_program (describes : objects.Describes store) {depth : Nat} {scope : ScopeId}
    {site : Site} {code : Program} (ran : program depth scope site code store = .ok value later) :
    objects.Accounts later value := by
  rw [program_eq_block] at ran
  obtain ⟨_, noted, announced, ran⟩ := Run.bind_eq_ok ran
  cases announced
  obtain ⟨result, middle, settled, ran⟩ := Run.bind_eq_ok ran
  have describesNoted : objects.Describes (store.note (.program code.statements.length)) :=
    describes.of_scopes rfl rfl
  obtain ⟨final, wider, describes, knows⟩ := known_settle describesNoted
    (.block (.apply depth) scope site 0 .null (knows_plain rfl) code.statements) settled
  match result with
  | .ok value =>
      cases ran
      exact ⟨final, wider, describes, knows⟩
  | .error (.returned value) =>
      cases ran
      exact ⟨final, wider, describes, knows⟩
  | .error (.failed error) =>
      cases ran
      have describesStopped : final.Describes (middle.note (.stopped error)) :=
        describes.of_scopes rfl rfl
      exact (accounts_error describesStopped error).after wider

/-- Wherever an evaluation ends, old objects have kept their numbers, and the value is known. -/
theorem accounts_fresh (describes : objects.Describes store) {depth : Nat} {scope : ScopeId}
    {code : Node} (ran : fresh depth scope code store = .ok value later) :
    objects.Accounts later value := by
  obtain ⟨unit, numbered, issued, ran⟩ := Run.bind_eq_ok ran
  cases issued
  -- the number of the unit of code is no object's
  have describesUnit := describes.issue .null
  suffices (objects.add .null).Accounts later value from this.after (objects.extends_add .null)
  match code with
  | .program code => exact accounts_program describesUnit ran
  | .block code =>
      exact accounts_inner describesUnit
        (.block (.apply depth) scope _ 0 .null (knows_plain rfl) code) ran
  | .stmt code => exact accounts_inner describesUnit (.stmt (.apply depth) scope _ code) ran
  | .expr code => exact accounts_inner describesUnit (.expr (.apply depth) scope _ code) ran

end Evaluation

namespace Store

/-- The stores that come about when sessions start and end and code is evaluated. Calls from outside
are not among the steps, since a caller could pass an object with the number of another one. -/
inductive Evolved : Store → Prop
  | empty (register : Register) : Evolved ⟨#[], register, 0, "", #[]⟩
  | noted {store : Store} (evolved : Evolved store) (event : Event) : Evolved (store.note event)
  | started {store : Store} (evolved : Evolved store) : Evolved (Session.start store).2
  | closed {store : Store} (evolved : Evolved store) (session : Session) :
      Evolved (session.close store)
  | evaluated {store later : Store} {depth : Nat} {scope : ScopeId} {code : Node} {value : Value}
      (evolved : Evolved store) (ran : Evaluation.fresh depth scope code store = .ok value later) :
      Evolved later

theorem Evolved.described {store : Store} (evolved : store.Evolved) :
    ∃ objects : Objects, objects.Describes store := by
  induction evolved with
  | empty => exact ⟨⟨0, fun _ => .null⟩, rfl, nofun⟩
  | noted _ event ih =>
      obtain ⟨objects, describes⟩ := ih
      exact ⟨objects, describes.of_scopes rfl rfl⟩
  | started _ ih =>
      obtain ⟨objects, describes⟩ := ih
      exact ⟨objects, describes.start⟩
  | closed _ session ih =>
      obtain ⟨objects, describes⟩ := ih
      exact ⟨objects, describes.close session⟩
  | evaluated _ ran ih =>
      obtain ⟨objects, describes⟩ := ih
      obtain ⟨final, _, describesLater, _⟩ := Evaluation.accounts_fresh describes ran
      exact ⟨final, describesLater⟩

end Store

/-! ## The operator -/

theorem Objects.Knows.isIn {objects : Objects} {value : Value} (knows : objects.Knows value) :
    value.IsIn objects.object :=
  Value.All.mono knows fun _ numbers id isId => (numbers id isId).2

/-- Among known values, only the same one is equal to a value. -/
theorem Objects.equals_iff {objects : Objects} {a b : Value} (knows : objects.Knows a)
    (knowsOther : objects.Knows b) : a.Equals b ↔ a = b := by
  rw [Value.equals_iff]
  constructor
  · exact Value.eq_of_identical knows.isIn knowsOther.isIn
  · rintro rfl
    exact a.identical_refl

theorem Eval.ofResult_apply_equal {a b : Value} {store later : Store} :
    ofResult (BinaryOp.equal.apply a b) store = .ok (.boolean true) later ↔
      a.Equals b ∧ store = later := by
  rw [Value.Equals]
  cases BinaryOp.equal.apply a b with
  | ok result => simp [ofResult, Run.pure_apply]
  | error error => simp [ofResult, Run.raise]

/-- In a store that programs lead to, `==` holds exactly if the two sides come to the same value. -/
theorem equal_iff_same {store : Store} (evolved : store.Evolved) (depth : Nat) (scope : ScopeId)
    (site : Site) (left right : Expr) (later : Store) :
    Eval.expr (Eval.apply depth) scope site (.binary .equal left right) store =
        .ok (.boolean true) later ↔
      ∃ value middle, Eval.expr (Eval.apply depth) scope (0 :: site) left store =
          .ok value middle ∧
        Eval.expr (Eval.apply depth) scope (1 :: site) right middle = .ok value later := by
  obtain ⟨objects, describes⟩ := evolved.described
  constructor
  · intro ran
    obtain ⟨value, middle, ranLeft, ran⟩ := Run.bind_eq_ok ran
    obtain ⟨other, final, ranRight, ran⟩ := Run.bind_eq_ok ran
    obtain ⟨equals, rfl⟩ := Eval.ofResult_apply_equal.mp ran
    have keeps {before : Objects} (site : Site) (code : Expr) :
        Objects.Keeps Objects.Knows before (Eval.expr (Eval.apply depth) scope site code) :=
      .expr (.apply depth) scope site code
    obtain ⟨known, _, describes, knows⟩ := (keeps _ left).of_ok describes ranLeft
    obtain ⟨all, wider, _, knowsOther⟩ := (keeps _ right).of_ok describes ranRight
    obtain rfl := (Objects.equals_iff (knows.mono wider) knowsOther).mp equals
    exact ⟨value, middle, ranLeft, ranRight⟩
  · rintro ⟨value, middle, ranLeft, ranRight⟩
    simp only [Eval.expr, Run.bind_apply, ranLeft, ranRight]
    exact Eval.ofResult_apply_equal.mpr ⟨Value.equals_iff.mpr value.identical_refl, rfl⟩

end Scriptlet
