import Scriptlet.Proofs.Eval.Placement

/-!
# Evaluation stays within a region

A scope refers to the scope around it and to those that functions bound in it have captured
(`Store.Refers`). A region that is closed under references can not be left: code that runs in one of
its scopes, and whatever it calls, binds and gives only functions that have captured scopes of the
region or new ones (`Confines.block`, `Confines.apply`). The other scopes might as well not be
there.

On the way old scopes stay where they are (`Store.Keeps`), and a new scope lies inside an older one
and belongs to the same session (`Store.Nested`), whichever session the code was started in. Errors
and wrapped `return`s may be among the values that are bound, so that the disciplines of evaluation
are of no use here.
-/
set_option autoImplicit false

namespace Scriptlet

/-! ## References -/

def Value.Captures (value : Value) (scope : ScopeId) : Prop :=
  ∃ id closure, .function id closure ∈ value.parts ∧ closure.scope = scope

namespace Store

/-- The first scope keeps the second one in use. -/
inductive Refers (store : Store) (id target : ScopeId) : Prop
  | outer {session : ScopeId} (placed : store.place? id = some (some target, session))
  | bound {name : String} {value : Value} (found : store.binding? id name = some value)
      (captures : value.Captures target)

/-- The region, to which all scopes belong that are yet to be made, is closed under references. -/
structure Fenced (inside : ScopeId → Prop) (store : Store) : Prop where
  nested : store.Nested
  fresh : ∀ id, store.scopes.size ≤ id → inside id
  closed : ∀ id target, inside id → store.Refers id target →
    inside target ∧ target < store.scopes.size

end Store

/-! ## Confined values -/

def Value.KeepsTo (inside : ScopeId → Prop) (size : Nat) : Value → Prop
  | .function _ closure => inside closure.scope ∧ closure.scope < size
  | _ => True

def Value.Confined (inside : ScopeId → Prop) (size : Nat) (value : Value) : Prop :=
  value.All (KeepsTo inside size)

def AllConfined (inside : ScopeId → Prop) (size : Nat) (values : List Value) : Prop :=
  ∀ value ∈ values, value.Confined inside size

def Table.Confined (inside : ScopeId → Prop) (size : Nat) (table : Table Value) : Prop :=
  table.All (Value.KeepsTo inside size)

variable {inside : ScopeId → Prop} {size larger : Nat}

theorem Value.confined_iff {value : Value} :
    value.Confined inside size ↔ ∀ scope, value.Captures scope → inside scope ∧ scope < size := by
  constructor
  · rintro confined scope ⟨id, closure, isPart, rfl⟩
    exact confined _ isPart
  · intro captured part isPart
    cases part with
    | function id closure => exact captured closure.scope ⟨id, closure, isPart, rfl⟩
    | _ => trivial

theorem Value.KeepsTo.mono {value : Value} (keeps : value.KeepsTo inside size)
    (le : size ≤ larger) : value.KeepsTo inside larger := by
  cases value with
  | function id closure => exact ⟨keeps.1, keeps.2.trans_le le⟩
  | _ => trivial

theorem Value.Confined.mono {value : Value} (confined : value.Confined inside size)
    (le : size ≤ larger) : value.Confined inside larger :=
  Value.All.mono confined fun _ keeps => keeps.mono le

theorem AllConfined.mono {values : List Value} (confined : AllConfined inside size values)
    (le : size ≤ larger) : AllConfined inside larger values :=
  fun value isIn => (confined value isIn).mono le

theorem Table.Confined.mono {table : Table Value} (confined : table.Confined inside size)
    (le : size ≤ larger) : table.Confined inside larger :=
  fun entry isIn => ⟨Value.Confined.mono (confined entry isIn).1 le,
    Value.Confined.mono (confined entry isIn).2 le⟩

theorem Value.confined_plain {value : Value} (plain : value.isPlain = true) :
    value.Confined inside size := by
  refine Value.all_of_isPlain plain ?_
  cases value <;> trivial

theorem Value.confined_array {id : ObjectId} {elements : List Value} :
    (Value.array id elements).Confined inside size ↔ AllConfined inside size elements :=
  Value.all_array.trans (and_iff_right trivial)

theorem Value.confined_hash {id : ObjectId} {table : Table Value} :
    (Value.hash id table).Confined inside size ↔ table.Confined inside size :=
  Value.all_hash.trans (and_iff_right trivial)

/-! ## Stores that keep to a region -/

namespace Store.Fenced

variable {before later store : Store}

theorem of_scopes (fenced : before.Fenced inside) (same : later.scopes = before.scopes) :
    later.Fenced inside := by
  refine ⟨fenced.nested.of_place? (place?_of_scopes same), ?_, fun id target isIn refers => ?_⟩
  · rw [same]
    exact fenced.fresh
  · rw [same]
    refine fenced.closed id target isIn ?_
    cases refers with
    | outer placed => exact .outer (place?_of_scopes same id ▸ placed)
    | bound found captures => exact .bound (binding?_of_scopes same id _ ▸ found) captures

theorem define (fenced : store.Fenced inside) (scope : ScopeId) (name : String) {value : Value}
    (confined : value.Confined inside store.scopes.size) :
    (store.define scope name value).Fenced inside := by
  have size : (store.define scope name value).scopes.size = store.scopes.size := by
    simp [Store.define]
  have placed := place?_define store scope name value
  refine ⟨fenced.nested.of_place? placed, size ▸ fenced.fresh, fun id target isIn refers => ?_⟩
  rw [size]
  cases refers with
  | outer found => exact fenced.closed id target isIn (.outer (placed id ▸ found))
  | bound found captures =>
      rw [binding?_define_eq] at found
      split at found
      · cases found
        exact Value.confined_iff.mp confined target captures
      · exact fenced.closed id target isIn (.bound found captures)

/-- A new scope belongs to the region if what it refers to does. -/
theorem add (fenced : store.Fenced inside) {scope : Scope} (nested : (store.add scope).2.Nested)
    (around : ∀ outer, scope.outer = some outer → inside outer ∧ outer < store.scopes.size)
    (confined : ∀ binding ∈ scope.bindings, binding.2.Confined inside store.scopes.size) :
    (store.add scope).2.Fenced inside := by
  have grows : store.scopes.size < (store.add scope).2.scopes.size := by simp
  refine ⟨nested, fun id new => fenced.fresh id (grows.le.trans new), ?_⟩
  intro id target isInside refers
  suffices inside target ∧ target < store.scopes.size from ⟨this.1, this.2.trans grows⟩
  cases refers with
  | outer placed =>
      rw [place?_add] at placed
      split at placed
      · exact around target (Prod.mk.inj (Option.some.inj placed)).1
      · exact fenced.closed id target isInside (.outer placed)
  | @bound name value found captures =>
      rw [binding?_add] at found
      split at found
      · obtain ⟨front, back, split, _⟩ := List.lookup_eq_some_iff.mp found
        have isBound : (name, value) ∈ scope.bindings := by simp [split]
        exact Value.confined_iff.mp (confined _ isBound) target captures
      · exact fenced.closed id target isInside (.bound found captures)

theorem enclose (fenced : store.Fenced inside) {outer : ScopeId} (isIn : inside outer)
    (old : outer < store.scopes.size) {bindings : List (String × Value)}
    (confined : ∀ binding ∈ bindings, binding.2.Confined inside store.scopes.size) :
    (store.enclose outer bindings).2.Fenced inside := by
  refine fenced.add (fenced.nested.add nofun ?_) ?_ confined
  · rintro _ ⟨⟩
    exact ⟨old, rfl⟩
  · rintro _ ⟨⟩
    exact ⟨isIn, old⟩

theorem start (fenced : store.Fenced inside) : (Session.start store).2.Fenced inside :=
  fenced.add (fenced.nested.add (fun _ => rfl) nofun) nofun nofun

theorem chainUpTo (fenced : store.Fenced inside) (length : Nat) {id : ScopeId} (isIn : inside id) :
    ∀ other ∈ store.chainUpTo length id, inside other := by
  induction length generalizing id with
  | zero => simp [Store.chainUpTo]
  | succ length ih =>
      unfold Store.chainUpTo
      cases found : store.scopes[id]? with
      | none => simp
      | some scope =>
          cases leads : scope.outer with
          | none => simpa [leads] using isIn
          | some outer =>
              have placed := place?_of_getElem? found
              rw [leads] at placed
              have isInOuter := (fenced.closed id outer isIn (.outer placed)).1
              simp only [leads]
              exact List.forall_mem_cons.mpr ⟨isIn, ih isInOuter⟩

theorem lookup (fenced : store.Fenced inside) {scope : ScopeId} (isIn : inside scope)
    {name : String} {value : Value} (found : store.lookup scope name = some value) :
    value.Confined inside store.scopes.size := by
  obtain ⟨id, isOnChain, found⟩ := List.exists_of_findSome?_eq_some found
  refine Value.confined_iff.mpr fun target captures => ?_
  exact fenced.closed id target (fenced.chainUpTo _ isIn id isOnChain) (.bound found captures)

end Store.Fenced

/-! ## Runs that keep to a region -/

variable {α β : Type} {before middle later : Store}

/-- An ending within the region. What is asked of a value may depend on the number of scopes. -/
inductive EndsWithin (inside : ScopeId → Prop) (good : Nat → α → Prop) (before : Store) :
    Outcome Store Unwind α → Prop
  | ok {later : Store} {value : α} (keeps : before.Keeps later) (fenced : later.Fenced inside)
      (isGood : good later.scopes.size value) : EndsWithin inside good before (.ok value later)
  | returned {later : Store} {value : Value} (keeps : before.Keeps later)
      (fenced : later.Fenced inside) (confined : value.Confined inside later.scopes.size) :
      EndsWithin inside good before (.raised (.returned value) later)
  | failed {later : Store} {error : EvalError} (keeps : before.Keeps later)
      (fenced : later.Fenced inside) : EndsWithin inside good before (.raised (.failed error) later)
  | halted (why : Halt) : EndsWithin inside good before (.halted why)

def Confines (inside : ScopeId → Prop) (good : Nat → α → Prop) (size : Nat) (run : Eval α) : Prop :=
  ∀ store : Store, size ≤ store.scopes.size → store.Fenced inside →
    EndsWithin inside good store (run store)

theorem EndsWithin.trans {good : Nat → α → Prop} {outcome : Outcome Store Unwind α}
    (keeps : before.Keeps middle) (ends : EndsWithin inside good middle outcome) :
    EndsWithin inside good before outcome := by
  cases ends with
  | ok keepsMore fenced isGood => exact .ok (keeps.trans keepsMore) fenced isGood
  | returned keepsMore fenced confined => exact .returned (keeps.trans keepsMore) fenced confined
  | failed keepsMore fenced => exact .failed (keeps.trans keepsMore) fenced
  | halted why => exact .halted why

namespace Confines

open Value (Confined confined_plain confined_array confined_hash)

variable {good : Nat → α → Prop} {goodNext : Nat → β → Prop}

theorem bind {run : Eval α} {next : α → Eval β} (confines : Confines inside good size run)
    (confinesNext : ∀ larger value, size ≤ larger → good larger value →
      Confines inside goodNext larger (next value)) :
    Confines inside goodNext size (run >>= next) := by
  intro store enough fenced
  have first := confines store enough fenced
  rw [Run.bind_apply]
  generalize run store = outcome at first
  cases first with
  | ok keeps fenced isGood =>
      -- the rest runs where there may be more scopes, and what was confined before still is
      have rest := confinesNext _ _ (enough.trans keeps.size) isGood _ le_rfl fenced
      exact rest.trans keeps
  | returned keeps fenced confined => exact .returned keeps fenced confined
  | failed keeps fenced => exact .failed keeps fenced
  | halted why => exact .halted why

theorem pure {value : α} (isGood : ∀ larger, size ≤ larger → good larger value) :
    Confines inside good size (Pure.pure value) :=
  fun store enough fenced => .ok (.refl store) fenced (isGood _ enough)

theorem value {value : Value} (confined : value.Confined inside size) :
    Confines inside (Confined inside) size (Pure.pure value) :=
  .pure fun _ le => confined.mono le

theorem plain {value : Value} (plain : value.isPlain = true) :
    Confines inside (Confined inside) size (Pure.pure value) :=
  .value (confined_plain plain)

theorem failure (error : EvalError) :
    Confines inside good size (Run.raise (.failed error)) :=
  fun store _ fenced => .failed (.refl store) fenced

theorem returning {value : Value} (confined : value.Confined inside size) :
    Confines inside good size (Run.raise (.returned value)) :=
  fun store enough fenced => .returned (.refl store) fenced (confined.mono enough)

theorem ofResult {result : Except EvalError Value}
    (confined : ∀ value, result = .ok value → value.Confined inside size) :
    Confines inside (Confined inside) size (Eval.ofResult result) := by
  cases result with
  | ok value => exact .value (confined value rfl)
  | error error => exact .failure error

theorem modify {change : Store → Store} (same : ∀ store, (change store).scopes = store.scopes)
    (register : ∀ store, (change store).register = store.register) :
    Confines inside (fun _ _ => True) size (Run.modify change) := fun store _ fenced =>
  .ok (.of_scopes (same store) (register store)) (fenced.of_scopes (same store)) trivial

theorem note (event : Event) :
    Confines inside (fun _ _ => True) size (Run.modify fun store => store.note event) :=
  modify (fun _ => rfl) fun _ => rfl

theorem print (text : String) :
    Confines inside (fun _ _ => True) size (Run.modify fun store => store.print text) :=
  modify (fun _ => rfl) fun _ => rfl

theorem allocate {object : ObjectId → Value} (confined : ∀ id, (object id).Confined inside size) :
    Confines inside (Confined inside) size (Eval.allocate object) := by
  intro store enough fenced
  exact .ok (.of_scopes rfl rfl) (fenced.of_scopes rfl) ((confined _).mono enough)

theorem resolve {scope : ScopeId} (isIn : inside scope) (name : String) :
    Confines inside (Confined inside) size (Eval.resolve scope name) := by
  intro store _ fenced
  simp only [Eval.resolve, Run.bind_apply, Run.view]
  cases bound : store.lookup scope name with
  | some value => exact .ok (.refl store) fenced (fenced.lookup isIn bound)
  | none =>
      cases Builtin.ofName? name with
      | some builtin => exact .ok (.refl store) fenced (confined_plain rfl)
      | none => exact .failed (.refl store) fenced

theorem catchReturn {eval : Eval Value} (confines : Confines inside (Confined inside) size eval) :
    Confines inside (Confined inside) size (Eval.catchReturn eval) := by
  intro store enough fenced
  have ended := confines store enough fenced
  unfold Eval.catchReturn
  generalize eval store = outcome at ended
  cases ended with
  | ok keeps fenced confined => exact .ok keeps fenced confined
  | returned keeps fenced confined => exact .ok keeps fenced confined
  | failed keeps fenced => exact .failed keeps fenced
  | halted why => exact .halted why

/-! ### Builtins -/

theorem onlyArgument (builtin : Builtin) {arguments : List Value}
    (confined : AllConfined inside size arguments) :
    Confines inside (Confined inside) size (builtin.onlyArgument arguments) := by
  unfold Builtin.onlyArgument
  split
  · exact .value (confined _ (List.mem_singleton_self _))
  · exact .failure _

theorem elementsOf (builtin : Builtin) {value : Value} (confined : value.Confined inside size) :
    Confines inside (AllConfined inside) size (builtin.elementsOf value) := by
  unfold Builtin.elementsOf
  split
  · exact .pure fun _ le => (confined_array.mp confined).mono le
  · exact .failure _

theorem onElements (builtin : Builtin) {arguments : List Value}
    (confined : AllConfined inside size arguments) {next : List Value → Eval Value}
    (confinesNext : ∀ larger elements, AllConfined inside larger elements →
      Confines inside (Confined inside) larger (next elements)) :
    Confines inside (Confined inside) size
      (builtin.onlyArgument arguments >>= fun argument =>
        builtin.elementsOf argument >>= next) := by
  refine (onlyArgument builtin confined).bind fun _ argument _ confinedArgument => ?_
  refine (elementsOf builtin confinedArgument).bind fun _ elements _ confinedAll => ?_
  exact confinesNext _ elements confinedAll

theorem found {found : Option Value}
    (confined : ∀ value, found = some value → value.Confined inside size) :
    Confines inside (Confined inside) size (Pure.pure (found.getD .null)) :=
  .value (Value.all_getD trivial confined)

theorem run (builtin : Builtin) {arguments : List Value}
    (confined : AllConfined inside size arguments) :
    Confines inside (Confined inside) size (builtin.run arguments) := by
  cases builtin with
  | len =>
      refine (onlyArgument _ confined).bind fun _ argument _ _ => ?_
      cases Builtin.measure argument with
      | ok size => exact .plain rfl
      | error refusal => exact .failure _
  | first =>
      refine onElements .first confined fun _ elements confinedAll => ?_
      exact found fun value isFirst => confinedAll value (List.mem_of_mem_head? isFirst)
  | last =>
      refine onElements .last confined fun _ elements confinedAll => ?_
      exact found fun value isLast => confinedAll value (List.mem_of_getLast? isLast)
  | rest =>
      refine onElements .rest confined fun _ elements confinedAll => ?_
      cases elements with
      | nil => exact .plain rfl
      | cons first others =>
          exact allocate fun _ => confined_array.mpr (List.forall_mem_cons.mp confinedAll).2
  | push =>
      simp only [Builtin.run]
      split
      · obtain ⟨confinedArray, confinedValue, _⟩ := List.forall_mem_cons.mp confined |>.imp_right
          List.forall_mem_cons.mp
        refine (elementsOf _ confinedArray).bind fun _ elements le confinedAll => ?_
        refine allocate fun _ => confined_array.mpr (List.forall_mem_append.mpr ⟨confinedAll, ?_⟩)
        exact List.forall_mem_singleton.mpr (Value.Confined.mono confinedValue le)
      · exact .failure _
  | puts =>
      refine (print _).bind fun _ _ _ _ => ?_
      exact .plain rfl

/-! ### Code -/

section Code

set_option linter.unusedSectionVars false

variable {call : Eval.Caller} (calls : ∀ {size : Nat} {callee : Value} {arguments : List Value},
  callee.Confined inside size → AllConfined inside size arguments →
  Confines inside (Confined inside) size (call callee arguments))

include calls

mutual

theorem expr {size : Nat} {scope : ScopeId} (isIn : inside scope) (old : scope < size) (site : Site)
    (code : Expr) : Confines inside (Confined inside) size (Eval.expr call scope site code) := by
  match code with
  | .name name => exact resolve isIn name
  | .integer value => exact .plain rfl
  | .string text => exact .plain rfl
  | .boolean value => exact .plain rfl
  | .array items =>
      refine (exprs isIn old site 0 items).bind fun _ values _ confined => ?_
      exact allocate fun _ => confined_array.mpr confined
  | .hash pairs =>
      have empty : Table.empty.Confined inside size := Table.all_empty
      refine (entries isIn old site 0 .empty empty pairs).bind fun _ table _ confined => ?_
      exact allocate fun _ => confined_hash.mpr confined
  | .unary op operand =>
      refine (expr isIn old (0 :: site) operand).bind fun _ value _ _ => ofResult ?_
      exact fun result applied => confined_plain (UnaryOp.apply_isPlain applied)
  | .binary op left right =>
      refine (expr isIn old (0 :: site) left).bind fun _ value le _ => ?_
      refine (expr isIn (old.trans_le le) (1 :: site) right).bind fun _ other _ _ => ofResult ?_
      exact fun result applied => confined_plain (BinaryOp.apply_isPlain applied)
  | .conditional condition consequence none =>
      refine (expr isIn old (0 :: site) condition).bind fun _ value le _ => ?_
      split
      · exact block isIn (old.trans_le le) (1 :: site) 0 .null (confined_plain rfl) consequence
      · exact .plain rfl
  | .conditional condition consequence (some alternative) =>
      refine (expr isIn old (0 :: site) condition).bind fun _ value le _ => ?_
      split
      · exact block isIn (old.trans_le le) (1 :: site) 0 .null (confined_plain rfl) consequence
      · exact block isIn (old.trans_le le) (2 :: site) 0 .null (confined_plain rfl) alternative
  | .function parameters body => exact allocate fun _ => Value.all_function ⟨isIn, old⟩
  | .call callee arguments =>
      refine (expr isIn old (0 :: site) callee).bind fun _ value le confined => ?_
      refine (exprs isIn (old.trans_le le) site 1 arguments).bind fun _ values le confinedAll => ?_
      exact calls (Value.Confined.mono confined le) confinedAll
  | .index left index =>
      refine (expr isIn old (0 :: site) left).bind fun _ value le confined => ?_
      refine (expr isIn (old.trans_le le) (1 :: site) index).bind fun _ position le _ => ?_
      exact ofResult fun _ found => Value.All.at trivial (Value.Confined.mono confined le) found

theorem stmt {size : Nat} {scope : ScopeId} (isIn : inside scope) (old : scope < size) (site : Site)
    (code : Stmt) : Confines inside (Confined inside) size (Eval.stmt call scope site code) := by
  match code with
  | .define name code =>
      refine (expr isIn old site code).bind fun _ value _ confined => ?_
      intro store enough fenced
      have confinedHere := Value.Confined.mono confined enough
      have keeps := Store.Keeps.define store scope name value
      exact .ok keeps (fenced.define scope name confinedHere) (confinedHere.mono keeps.size)
  | .returning code => exact (expr isIn old site code).bind fun _ _ _ confined => returning confined
  | .expr code => exact expr isIn old site code

theorem exprs {size : Nat} {scope : ScopeId} (isIn : inside scope) (old : scope < size)
    (site : Site) (next : Nat) (items : List Expr) :
    Confines inside (AllConfined inside) size (Eval.exprs call scope site next items) := by
  match items with
  | [] => exact .pure fun _ _ => by simp [AllConfined]
  | item :: items =>
      refine (expr isIn old (next :: site) item).bind fun _ value le confined => ?_
      refine (exprs isIn (old.trans_le le) site (next + 1) items).bind fun _ values le all => ?_
      refine .pure fun _ leMore => AllConfined.mono ?_ leMore
      exact List.forall_mem_cons.mpr ⟨Value.Confined.mono confined le, all⟩

theorem entries {size : Nat} {scope : ScopeId} (isIn : inside scope) (old : scope < size)
    (site : Site) (next : Nat) (table : Table Value) (confined : table.Confined inside size)
    (pairs : List (Expr × Expr)) :
    Confines inside (Table.Confined inside) size
      (Eval.entries call scope site next table pairs) := by
  match pairs with
  | [] => exact .pure fun _ le => confined.mono le
  | (key, value) :: pairs =>
      refine (expr isIn old (next :: site) key).bind fun _ shown le confinedKey => ?_
      cases shown.key with
      | error error => exact .failure error
      | ok key =>
          have old := old.trans_le le
          refine (expr isIn old ((next + 1) :: site) value).bind
            fun _ stored leMore confinedValue => ?_
          refine entries isIn (old.trans_le leMore) site (next + 2) _ ?_ pairs
          exact Table.All.insert (confined.mono (le.trans leMore)) key
            (Value.Confined.mono confinedKey leMore) confinedValue

theorem block {size : Nat} {scope : ScopeId} (isIn : inside scope) (old : scope < size)
    (site : Site) (next : Nat) (last : Value) (confined : last.Confined inside size)
    (code : List Stmt) :
    Confines inside (Confined inside) size (Eval.block call scope site next last code) := by
  match code with
  | [] => exact .value confined
  | first :: rest =>
      refine (stmt isIn old (next :: site) first).bind fun _ value le confined => ?_
      exact block isIn (old.trans_le le) site (next + 1) value confined rest

end

/-- The body of a function runs in a new scope inside the one that was captured. -/
theorem applyClosure {closure : Closure} {arguments : List Value} (isIn : inside closure.scope)
    (old : closure.scope < size) (confined : AllConfined inside size arguments) :
    Confines inside (Confined inside) size (Eval.applyClosure call closure arguments) := by
  intro store enough fenced
  let bindings := (Eval.bindArguments closure.parameters arguments).reverse
  let fresh := (store.enclose closure.scope bindings).2
  let event := Event.function closure.parameters.length arguments.length
    (fresh.depth store.scopes.size)
  have bound : ∀ binding ∈ bindings, binding.2.Confined inside store.scopes.size := by
    have all : ∀ binding ∈ Eval.bindArguments closure.parameters arguments,
        binding.2.Confined inside store.scopes.size :=
      Eval.all_bindArguments trivial closure.parameters (confined.mono enough)
    exact fun binding isBound => all binding (List.mem_reverse.mp isBound)
  have fencedInside : fresh.Fenced inside := fenced.enclose isIn (old.trans_le enough) bound
  have isNew : store.scopes.size < fresh.scopes.size := by simp [fresh, Store.enclose]
  have body := (block calls (fenced.fresh _ le_rfl) isNew closure.site 0 .null (confined_plain rfl)
    closure.body).catchReturn
  have keeps : store.Keeps (fresh.note event) :=
    (Store.Keeps.add store _).trans (.of_scopes rfl rfl)
  exact (body (fresh.note event) le_rfl (fencedInside.of_scopes rfl)).trans keeps

end Code

theorem builtin (builtin : Builtin) {arguments : List Value}
    (confined : AllConfined inside size arguments) (depth : Nat) :
    Confines inside (Confined inside) size (Eval.apply depth (.builtin builtin) arguments) := by
  unfold Eval.apply
  exact (note _).bind fun _ _ le _ => run builtin (confined.mono le)

theorem apply (depth : Nat) {size : Nat} {callee : Value} {arguments : List Value}
    (confined : callee.Confined inside size) (confinedAll : AllConfined inside size arguments) :
    Confines inside (Confined inside) size (Eval.apply depth callee arguments) := by
  induction depth generalizing size callee arguments with
  | zero =>
      cases callee with
      | builtin which => exact builtin which confinedAll 0
      | function id closure => exact fun _ _ _ => .halted .exhausted
      | _ => exact .failure _
  | succ depth ih =>
      cases callee with
      | builtin which => exact builtin which confinedAll (depth + 1)
      | function id closure => exact applyClosure ih confined.self.1 confined.self.2 confinedAll
      | _ => exact .failure _

end Confines

/-! ## Seen from outside -/

namespace Evaluation

variable {store : Store} {scope : ScopeId} {value : Value}

def ConfinedBy (inside : ScopeId → Prop) (size : Nat) : Except Unwind Value → Prop
  | .ok value => value.Confined inside size
  | .error (.returned value) => value.Confined inside size
  | .error (.failed _) => True

theorem confined_settle {eval : Eval Value} (fenced : store.Fenced inside)
    (confines : Confines inside (Value.Confined inside) store.scopes.size eval)
    {result : Except Unwind Value} (ran : settle eval store = .ok result later) :
    store.Keeps later ∧ later.Fenced inside ∧ ConfinedBy inside later.scopes.size result := by
  have ended := confines store le_rfl fenced
  unfold settle at ran
  generalize eval store = outcome at ended ran
  cases ended with
  | ok keeps fenced confined | returned keeps fenced confined =>
      cases ran
      exact ⟨keeps, fenced, confined⟩
  | failed keeps fenced =>
      cases ran
      exact ⟨keeps, fenced, trivial⟩
  | halted why => cases ran

theorem confined_inner {eval : Eval Value} (fenced : store.Fenced inside)
    (confines : Confines inside (Value.Confined inside) store.scopes.size eval)
    (ran : inner eval store = .ok value later) :
    store.Keeps later ∧ later.Fenced inside ∧ value.Confined inside later.scopes.size := by
  obtain ⟨result, middle, settled, ran⟩ := Run.bind_eq_ok ran
  obtain ⟨keeps, fenced, confined⟩ := confined_settle fenced confines settled
  have issued : middle.Keeps middle.issue.2 := .of_scopes rfl rfl
  match result with
  | .ok value =>
      cases ran
      exact ⟨keeps, fenced, confined⟩
  | .error (.returned inner) =>
      cases ran
      exact ⟨keeps.trans issued, fenced.of_scopes rfl, List.forall_mem_cons.mpr ⟨trivial, confined⟩⟩
  | .error (.failed error) =>
      cases ran
      exact ⟨keeps.trans issued, fenced.of_scopes rfl, List.forall_mem_singleton.mpr trivial⟩

theorem confined_program (fenced : store.Fenced inside) (isIn : inside scope)
    (old : scope < store.scopes.size) {depth : Nat} {site : Site} {code : Program}
    (ran : program depth scope site code store = .ok value later) :
    store.Keeps later ∧ later.Fenced inside ∧ value.Confined inside later.scopes.size := by
  rw [program_eq_block] at ran
  obtain ⟨_, noted, announced, ran⟩ := Run.bind_eq_ok ran
  cases announced
  obtain ⟨result, middle, settled, ran⟩ := Run.bind_eq_ok ran
  have fencedNoted : (store.note (.program code.statements.length)).Fenced inside :=
    fenced.of_scopes rfl
  obtain ⟨keeps, fenced, confined⟩ := confined_settle fencedNoted
    (.block (.apply depth) isIn old site 0 .null (Value.confined_plain rfl) code.statements) settled
  have announced : store.Keeps (store.note (.program code.statements.length)) :=
    .of_scopes rfl rfl
  have keeps := announced.trans keeps
  match result with
  | .ok value =>
      cases ran
      exact ⟨keeps, fenced, confined⟩
  | .error (.returned value) =>
      cases ran
      exact ⟨keeps, fenced, confined⟩
  | .error (.failed error) =>
      cases ran
      exact ⟨keeps.trans (.of_scopes rfl rfl), fenced.of_scopes rfl,
        List.forall_mem_singleton.mpr trivial⟩

/-- An evaluation in a scope of the region does not leave it, and its value does not lead out. -/
theorem confined_fresh (fenced : store.Fenced inside) (isIn : inside scope)
    (old : scope < store.scopes.size) {depth : Nat} {code : Node}
    (ran : fresh depth scope code store = .ok value later) :
    store.Keeps later ∧ later.Fenced inside ∧ value.Confined inside later.scopes.size := by
  obtain ⟨unit, numbered, issued, ran⟩ := Run.bind_eq_ok ran
  cases issued
  have fencedIssued : store.issue.2.Fenced inside := fenced.of_scopes rfl
  have issued : store.Keeps store.issue.2 := .of_scopes rfl rfl
  suffices store.issue.2.Keeps later ∧ later.Fenced inside ∧
      value.Confined inside later.scopes.size from ⟨issued.trans this.1, this.2⟩
  match code with
  | .program code => exact confined_program fencedIssued isIn old ran
  | .block code =>
      exact confined_inner fencedIssued
        (.block (.apply depth) isIn old _ 0 .null (Value.confined_plain rfl) code) ran
  | .stmt code => exact confined_inner fencedIssued (.stmt (.apply depth) isIn old _ code) ran
  | .expr code => exact confined_inner fencedIssued (.expr (.apply depth) isIn old _ code) ran

end Evaluation

end Scriptlet
