import Scriptlet.Eval.Program
import Scriptlet.Proofs.Eval.Parts
import Scriptlet.Proofs.Eval.Policy
import Scriptlet.Session

/-!
# Disciplines of evaluation

A discipline says what a policy for code is worth while the code runs: which scopes can take code of
a context (`Discipline.Hosts`). Functions carry code from the place where it stands to the place
where it is called, so that a function is taken for sound if its code obeys the policy in some
context and the scope that it captured hosts that context.

The main statement is that evaluation keeps a discipline. Code that obeys the policy, run in a scope
that hosts its context, ends in a store in which everything is sound again, and gives a sound value
(`Yields.block`, `Yields.apply`). Errors and wrapped `return`s are never sound as values: they only
unwind. A discipline may also accept no other error than those of a kind, by saying which names may
be missing.

There is one rule for each construct. Between two calls the induction is on the code, and calls are
taken by induction on how deeply they may be nested.
-/
set_option autoImplicit false

namespace Scriptlet

/-! ## What stores never lose -/

namespace Store

structure Retains (before later : Store) : Prop where
  size : before.scopes.size ≤ later.scopes.size
  outer : ∀ id < before.scopes.size,
    later.scopes[id]?.map Scope.outer = before.scopes[id]?.map Scope.outer
  bound : ∀ id name, (before.binding? id name).isSome → (later.binding? id name).isSome

variable {before middle later store : Store}

theorem binding?_of_scopes (same : later.scopes = before.scopes) (id : ScopeId) (name : String) :
    later.binding? id name = before.binding? id name := by
  rw [binding?, binding?, same]

theorem binding?_define_eq (store : Store) (scope : ScopeId) (name : String) (value : Value)
    (id : ScopeId) (other : String) :
    (store.define scope name value).binding? id other =
      if id = scope ∧ id < store.scopes.size ∧ other = name then some value
      else store.binding? id other := by
  simp only [define, binding?, Array.getElem?_modify]
  by_cases here : scope = id
  · subst here
    by_cases inside : scope < store.scopes.size
    · by_cases same : other = name
      · simp [inside, same]
      · simp [Array.getElem?_eq_getElem inside, same, List.lookup_cons,
          beq_eq_false_iff_ne.mpr same]
    · simp [inside]
  · simp [here, Ne.symm here]

theorem binding?_add (store : Store) (scope : Scope) (id : ScopeId) (name : String) :
    (store.add scope).2.binding? id name =
      if id = store.scopes.size then scope.bindings.lookup name else store.binding? id name := by
  simp only [scopes_add, binding?, Array.getElem?_push]
  by_cases new : id = store.scopes.size <;> simp [new]

theorem binding?_enclose (store : Store) (outer : ScopeId) (bindings : List (String × Value))
    (id : ScopeId) (name : String) :
    (store.enclose outer bindings).2.binding? id name =
      if id = store.scopes.size then bindings.lookup name else store.binding? id name :=
  store.binding?_add _ id name

namespace Retains

theorem refl (store : Store) : store.Retains store :=
  ⟨le_rfl, fun _ _ => rfl, fun _ _ isBound => isBound⟩

theorem trans (first : before.Retains middle) (second : middle.Retains later) :
    before.Retains later := by
  refine ⟨first.size.trans second.size, fun id old => ?_, fun id name isBound => ?_⟩
  · rw [second.outer id (old.trans_le first.size), first.outer id old]
  · exact second.bound id name (first.bound id name isBound)

theorem of_scopes (same : later.scopes = before.scopes) : before.Retains later := by
  refine ⟨by rw [same], fun id _ => by rw [same], fun id name isBound => ?_⟩
  rwa [binding?_of_scopes same]

theorem define (store : Store) (scope : ScopeId) (name : String) (value : Value) :
    store.Retains (store.define scope name value) := by
  refine ⟨by simp [Store.define], fun id _ => ?_, fun id other isBound => ?_⟩
  · simp only [Store.define, Array.getElem?_modify]
    split
    · cases store.scopes[id]? <;> rfl
    · rfl
  · rw [binding?_define_eq]
    split
    · rfl
    · exact isBound

theorem enclose (store : Store) (outer : ScopeId) (bindings : List (String × Value)) :
    store.Retains (store.enclose outer bindings).2 := by
  refine ⟨by simp [Store.enclose], fun id old => ?_, fun id name isBound => ?_⟩
  · simp [Store.enclose, Array.getElem?_push, Nat.ne_of_lt old]
  · rw [binding?_enclose]
    split
    · rename_i new
      rw [binding?, Array.getElem?_eq_none new.ge] at isBound
      cases isBound
    · exact isBound

end Retains

end Store

/-! ## Errors of operators -/

theorem UnaryOp.apply_ne_unbound (op : UnaryOp) (operand : Value) (name : String) :
    op.apply operand ≠ .error (.unbound name) := by
  unfold UnaryOp.apply
  split <;> simp

theorem BinaryOp.apply_ne_unbound (op : BinaryOp) (left right : Value) (name : String) :
    op.apply left right ≠ .error (.unbound name) := by
  unfold BinaryOp.apply BinaryOp.onIntegers BinaryOp.onSameKind
  repeat' split
  all_goals simp

theorem Value.key_ne_unbound (value : Value) (name : String) :
    value.key ≠ .error (.unbound name) := by
  unfold Value.key
  split <;> simp

theorem Value.at_ne_unbound (left index : Value) (name : String) :
    left.at index ≠ .error (.unbound name) := by
  unfold Value.at
  split
  · simp
  · intro failed
    cases known : index.key with
    | ok key => simp [known, Except.map] at failed
    | error error =>
        rw [known] at failed
        cases failed
        exact index.key_ne_unbound name known
  · simp

/-! ## Disciplines -/

structure Discipline extends Policy where
  /-- The scope can take code of the context. -/
  Hosts : Context → Store → ScopeId → Prop
  /-- The name may turn out to be bound nowhere. -/
  Missing : String → Prop
  hosts_mono {context : Context} {before later : Store} {scope : ScopeId}
    (retains : before.Retains later) (hosts : Hosts context before scope) :
    Hosts context later scope
  /-- A new scope inside one that hosts a function literal hosts the body of the function. -/
  hosts_enter {context : Context} {store : Store} {outer : ScopeId} (parameters : List String)
    (arguments : List Value) (hosts : Hosts context store outer) :
    Hosts (enter context parameters)
      (store.enclose outer (Eval.bindArguments parameters arguments).reverse).2 store.scopes.size
  hosts_define {context : Context} {store : Store} {scope : ScopeId} (name : String) (code : Expr)
    (value : Value) (hosts : Hosts context store scope) :
    Hosts (after context (.define name code)) (store.define scope name value) scope
  hosts_expr {context : Context} {store : Store} {scope : ScopeId} (code : Expr)
    (hosts : Hosts context store scope) : Hosts (after context (.expr code)) store scope
  missing {context : Context} {store : Store} {scope : ScopeId} {name : String}
    (allowed : AllowsName context name) (hosts : Hosts context store scope)
    (unbound : store.lookup scope name = none) (unknown : Builtin.ofName? name = none) :
    Missing name

namespace Discipline

variable (discipline : Discipline)

/-- The function comes from a literal that obeys the policy, and its scope hosts the literal. -/
def Accepts (store : Store) (closure : Closure) : Prop :=
  ∃ context, discipline.AllowsLiteral context closure.site closure.parameters closure.body ∧
    BlockObeys discipline.toPolicy (discipline.enter context closure.parameters) closure.site 0
      closure.body ∧
    discipline.Hosts context store closure.scope

def Admits (store : Store) : Value → Prop
  | .function _ closure => discipline.Accepts store closure
  | .error _ _ => False
  | .returned _ _ => False
  | _ => True

def Sound (store : Store) (value : Value) : Prop :=
  value.All (discipline.Admits store)

def SoundAll (store : Store) (values : List Value) : Prop :=
  ∀ value ∈ values, discipline.Sound store value

def SoundTable (store : Store) (table : Table Value) : Prop :=
  table.All (discipline.Admits store)

structure Fits (store : Store) : Prop where
  hosted : ∀ id < store.scopes.size, ∃ context, discipline.Hosts context store id
  bindings : ∀ id name value, store.binding? id name = some value → discipline.Sound store value

variable {discipline} {before middle later store : Store}

theorem Admits.mono {value : Value} (admits : discipline.Admits before value)
    (retains : before.Retains later) : discipline.Admits later value := by
  cases value with
  | function id closure =>
      obtain ⟨context, literal, obeys, hosts⟩ := admits
      exact ⟨context, literal, obeys, discipline.hosts_mono retains hosts⟩
  | _ => exact admits

theorem Sound.mono {value : Value} (sound : discipline.Sound before value)
    (retains : before.Retains later) : discipline.Sound later value :=
  Value.All.mono sound fun _ admits => admits.mono retains

theorem SoundAll.mono {values : List Value} (sound : discipline.SoundAll before values)
    (retains : before.Retains later) : discipline.SoundAll later values :=
  fun value isIn => (sound value isIn).mono retains

theorem SoundTable.mono {table : Table Value} (sound : discipline.SoundTable before table)
    (retains : before.Retains later) : discipline.SoundTable later table :=
  fun entry isIn =>
    ⟨Sound.mono (sound entry isIn).1 retains, Sound.mono (sound entry isIn).2 retains⟩

theorem sound_plain (store : Store) {value : Value} (plain : value.isPlain = true) :
    discipline.Sound store value := by
  refine Value.all_of_isPlain plain ?_
  cases value <;> trivial

theorem sound_array {id : ObjectId} {elements : List Value} :
    discipline.Sound store (.array id elements) ↔ discipline.SoundAll store elements :=
  Value.all_array.trans (and_iff_right trivial)

theorem sound_hash {id : ObjectId} {table : Table Value} :
    discipline.Sound store (.hash id table) ↔ discipline.SoundTable store table :=
  Value.all_hash.trans (and_iff_right trivial)

theorem Fits.of_scopes (fits : discipline.Fits before) (same : later.scopes = before.scopes) :
    discipline.Fits later := by
  have retains : before.Retains later := .of_scopes same
  refine ⟨fun id inside => ?_, fun id name value found => ?_⟩
  · rw [same] at inside
    obtain ⟨context, hosts⟩ := fits.hosted id inside
    exact ⟨context, discipline.hosts_mono retains hosts⟩
  · rw [Store.binding?_of_scopes same] at found
    exact (fits.bindings id name value found).mono retains

theorem Fits.define (fits : discipline.Fits store) (scope : ScopeId) (name : String)
    {value : Value} (sound : discipline.Sound store value) :
    discipline.Fits (store.define scope name value) := by
  have retains := Store.Retains.define store scope name value
  refine ⟨fun id inside => ?_, fun id other bound found => ?_⟩
  · rw [Store.define, Array.size_modify] at inside
    obtain ⟨context, hosts⟩ := fits.hosted id inside
    exact ⟨context, discipline.hosts_mono retains hosts⟩
  · rw [Store.binding?_define_eq] at found
    split at found
    · cases found
      exact sound.mono retains
    · exact (fits.bindings id other bound found).mono retains

/-- Calling a sound function makes a scope for its body. -/
theorem Fits.enclose {context : discipline.Context} {outer : ScopeId}
    (fits : discipline.Fits store) (hosts : discipline.Hosts context store outer)
    (parameters : List String) {arguments : List Value}
    (sound : discipline.SoundAll store arguments) :
    discipline.Fits
      (store.enclose outer (Eval.bindArguments parameters arguments).reverse).2 := by
  let bindings := (Eval.bindArguments parameters arguments).reverse
  have retains := Store.Retains.enclose store outer bindings
  refine ⟨fun id inside => ?_, fun id name value found => ?_⟩
  · by_cases new : id = store.scopes.size
    · exact ⟨_, new ▸ discipline.hosts_enter parameters arguments hosts⟩
    · simp only [Store.enclose, Store.scopes_add, Array.size_push] at inside
      obtain ⟨context, hosts⟩ := fits.hosted id (by omega)
      exact ⟨context, discipline.hosts_mono retains hosts⟩
  · rw [Store.binding?_enclose] at found
    split at found
    · obtain ⟨front, back, split, _⟩ := List.lookup_eq_some_iff.mp found
      have isIn : (name, value) ∈ Eval.bindArguments parameters arguments :=
        List.mem_reverse.mp (by simp [split])
      have all : ∀ binding ∈ Eval.bindArguments parameters arguments,
          discipline.Sound store binding.2 := Eval.all_bindArguments trivial parameters sound
      exact Sound.mono (all _ isIn) retains
    · exact (fits.bindings id name value found).mono retains

theorem Fits.lookup (fits : discipline.Fits store) {scope : ScopeId} {name : String}
    {value : Value} (found : store.lookup scope name = some value) :
    discipline.Sound store value := by
  obtain ⟨id, _, found⟩ := List.exists_of_findSome?_eq_some found
  exact fits.bindings id name value found

/-! ## Runs that keep a discipline -/

variable {α β : Type}

/-- An ending in good order. What is asked of a value may depend on the store at the end. -/
inductive Ends (discipline : Discipline) (good : Store → α → Prop) (before : Store) :
    Outcome Store Unwind α → Prop
  | ok {later : Store} {value : α} (retains : before.Retains later)
      (fits : discipline.Fits later) (isGood : good later value) :
      Ends discipline good before (.ok value later)
  | returned {later : Store} {value : Value} (retains : before.Retains later)
      (fits : discipline.Fits later) (sound : discipline.Sound later value) :
      Ends discipline good before (.raised (.returned value) later)
  | failed {later : Store} {error : EvalError} (retains : before.Retains later)
      (fits : discipline.Fits later)
      (missing : ∀ name, error = .unbound name → discipline.Missing name) :
      Ends discipline good before (.raised (.failed error) later)
  | halted (why : Halt) : Ends discipline good before (.halted why)

def Yields (discipline : Discipline) (good : Store → α → Prop) (before : Store)
    (run : Eval α) : Prop :=
  ∀ store, before.Retains store → discipline.Fits store → discipline.Ends good store (run store)

theorem Ends.trans {good : Store → α → Prop} {outcome : Outcome Store Unwind α}
    (retains : before.Retains middle) (ends : discipline.Ends good middle outcome) :
    discipline.Ends good before outcome := by
  cases ends with
  | ok retainsMore fits isGood => exact .ok (retains.trans retainsMore) fits isGood
  | returned retainsMore fits sound => exact .returned (retains.trans retainsMore) fits sound
  | failed retainsMore fits missing => exact .failed (retains.trans retainsMore) fits missing
  | halted why => exact .halted why

namespace Yields

variable {good : Store → α → Prop} {goodNext : Store → β → Prop}

theorem of_ok {run : Eval α} {value : α} (yields : discipline.Yields good store run)
    (fits : discipline.Fits store) (ran : run store = .ok value later) :
    store.Retains later ∧ discipline.Fits later ∧ good later value := by
  have ends := yields store (.refl store) fits
  rw [ran] at ends
  cases ends with
  | ok retains fits isGood => exact ⟨retains, fits, isGood⟩

theorem weaken {weak : Store → α → Prop} {run : Eval α}
    (yields : discipline.Yields good before run)
    (weaker : ∀ later value, good later value → weak later value) :
    discipline.Yields weak before run := by
  intro store retains fits
  have ended := yields store retains fits
  generalize run store = outcome at ended ⊢
  cases ended with
  | ok retains fits isGood => exact .ok retains fits (weaker _ _ isGood)
  | returned retains fits sound => exact .returned retains fits sound
  | failed retains fits missing => exact .failed retains fits missing
  | halted why => exact .halted why

theorem bind {run : Eval α} {next : α → Eval β} (yields : discipline.Yields good before run)
    (yieldsNext : ∀ later value, before.Retains later → good later value →
      discipline.Yields goodNext later (next value)) :
    discipline.Yields goodNext before (run >>= next) := by
  intro store retains fits
  have first := yields store retains fits
  rw [Run.bind_apply]
  generalize run store = outcome at first
  cases first with
  | ok retainsMore fits isGood =>
      -- the rest runs from a later store, in which what was sound before still is
      have rest := yieldsNext _ _ (retains.trans retainsMore) isGood _ (.refl _) fits
      exact rest.trans retainsMore
  | returned retainsMore fits sound => exact .returned retainsMore fits sound
  | failed retainsMore fits missing => exact .failed retainsMore fits missing
  | halted why => exact .halted why

theorem pure {value : α} (isGood : ∀ later, before.Retains later → good later value) :
    discipline.Yields good before (Pure.pure value) :=
  fun store retains fits => .ok (.refl store) fits (isGood store retains)

theorem value {value : Value} (sound : discipline.Sound before value) :
    discipline.Yields discipline.Sound before (Pure.pure value) :=
  .pure fun _ retains => sound.mono retains

theorem plain {value : Value} (plain : value.isPlain = true) :
    discipline.Yields discipline.Sound before (Pure.pure value) :=
  .pure fun later _ => sound_plain later plain

theorem failure {error : EvalError} (known : ∀ name, error ≠ .unbound name) :
    discipline.Yields good before (Run.raise (.failed error)) :=
  fun store _ fits => .failed (.refl store) fits fun name same => absurd same (known name)

theorem returning {value : Value} (sound : discipline.Sound before value) :
    discipline.Yields good before (Run.raise (.returned value)) :=
  fun store retains fits => .returned (.refl store) fits (sound.mono retains)

theorem ofResult {result : Except EvalError Value}
    (sound : ∀ value, result = .ok value → discipline.Sound before value)
    (known : ∀ name, result ≠ .error (.unbound name)) :
    discipline.Yields discipline.Sound before (Eval.ofResult result) := by
  cases result with
  | ok value => exact .value (sound value rfl)
  | error error => exact failure fun name same => known name (congrArg _ same)

theorem modify {change : Store → Store} (same : ∀ store, (change store).scopes = store.scopes) :
    discipline.Yields (fun _ _ => True) before (Run.modify change) :=
  fun store _ fits => .ok (.of_scopes (same store)) (fits.of_scopes (same store)) trivial

theorem note (event : Event) :
    discipline.Yields (fun _ _ => True) before (Run.modify fun store => store.note event) :=
  modify fun _ => rfl

theorem print (text : String) :
    discipline.Yields (fun _ _ => True) before (Run.modify fun store => store.print text) :=
  modify fun _ => rfl

theorem allocate {object : ObjectId → Value}
    (sound : ∀ later id, before.Retains later → discipline.Sound later (object id)) :
    discipline.Yields discipline.Sound before (Eval.allocate object) := by
  intro store retains fits
  have same : store.issue.2.scopes = store.scopes := rfl
  have grown : store.Retains store.issue.2 := .of_scopes same
  exact .ok grown (fits.of_scopes same) (sound _ _ (retains.trans grown))

theorem array {elements : List Value} (sound : discipline.SoundAll before elements) :
    discipline.Yields discipline.Sound before (Eval.allocate fun id => .array id elements) :=
  allocate fun _ _ retains => sound_array.mpr (sound.mono retains)

theorem resolve {context : discipline.Context} {scope : ScopeId} {name : String}
    (allowed : discipline.AllowsName context name)
    (hosts : discipline.Hosts context before scope) :
    discipline.Yields discipline.Sound before (Eval.resolve scope name) := by
  intro store retains fits
  simp only [Eval.resolve, Run.bind_apply, Run.view]
  cases bound : store.lookup scope name with
  | some value => exact .ok (.refl store) fits (fits.lookup bound)
  | none =>
      cases known : Builtin.ofName? name with
      | some builtin => exact .ok (.refl store) fits (sound_plain store rfl)
      | none =>
          refine .failed (.refl store) fits fun other same => ?_
          cases same
          exact discipline.missing allowed (discipline.hosts_mono retains hosts) bound known

theorem catchReturn {eval : Eval Value}
    (yields : discipline.Yields discipline.Sound before eval) :
    discipline.Yields discipline.Sound before (Eval.catchReturn eval) := by
  intro store retains fits
  have ended := yields store retains fits
  unfold Eval.catchReturn
  generalize eval store = outcome at ended
  cases ended with
  | ok retainsMore fits sound => exact .ok retainsMore fits sound
  | returned retainsMore fits sound => exact .ok retainsMore fits sound
  | failed retainsMore fits missing => exact .failed retainsMore fits missing
  | halted why => exact .halted why

/-! ### Builtins -/

theorem refuse (builtin : Builtin) (refusal : Builtin.Refusal) :
    discipline.Yields good before (builtin.refuse refusal) :=
  failure fun _ same => by cases same

theorem onlyArgument (builtin : Builtin) {arguments : List Value}
    (sound : discipline.SoundAll before arguments) :
    discipline.Yields discipline.Sound before (builtin.onlyArgument arguments) := by
  unfold Builtin.onlyArgument
  split
  · exact .value (sound _ (List.mem_singleton_self _))
  · exact refuse builtin _

theorem elementsOf (builtin : Builtin) {value : Value} (sound : discipline.Sound before value) :
    discipline.Yields discipline.SoundAll before (builtin.elementsOf value) := by
  unfold Builtin.elementsOf
  split
  · exact .pure fun later retains => (sound_array.mp sound).mono retains
  · exact refuse builtin _

theorem onElements (builtin : Builtin) {arguments : List Value}
    (sound : discipline.SoundAll before arguments) {next : List Value → Eval Value}
    (yieldsNext : ∀ later elements, discipline.SoundAll later elements →
      discipline.Yields discipline.Sound later (next elements)) :
    discipline.Yields discipline.Sound before
      (builtin.onlyArgument arguments >>= fun argument =>
        builtin.elementsOf argument >>= next) := by
  refine (onlyArgument builtin sound).bind fun later argument _ soundArgument => ?_
  refine (elementsOf builtin soundArgument).bind fun last elements _ soundElements => ?_
  exact yieldsNext last elements soundElements

theorem found {found : Option Value}
    (sound : ∀ value, found = some value → discipline.Sound before value) :
    discipline.Yields discipline.Sound before (Pure.pure (found.getD .null)) :=
  .value (Value.all_getD trivial sound)

theorem run (builtin : Builtin) {arguments : List Value}
    (sound : discipline.SoundAll before arguments) :
    discipline.Yields discipline.Sound before (builtin.run arguments) := by
  cases builtin with
  | len =>
      refine (onlyArgument _ sound).bind fun later argument _ _ => ?_
      cases Builtin.measure argument with
      | ok size => exact .plain rfl
      | error refusal => exact refuse _ refusal
  | first =>
      refine onElements .first sound fun later elements soundElements => ?_
      exact found fun value isFirst => soundElements value (List.mem_of_mem_head? isFirst)
  | last =>
      refine onElements .last sound fun later elements soundElements => ?_
      exact found fun value isLast => soundElements value (List.mem_of_getLast? isLast)
  | rest =>
      refine onElements .rest sound fun later elements soundElements => ?_
      cases elements with
      | nil => exact .plain rfl
      | cons first others => exact array (List.forall_mem_cons.mp soundElements).2
  | push =>
      simp only [Builtin.run]
      split
      · obtain ⟨soundArray, soundValue, _⟩ := List.forall_mem_cons.mp sound |>.imp_right
          List.forall_mem_cons.mp
        refine (elementsOf _ soundArray).bind fun later elements retains soundElements => ?_
        refine array (List.forall_mem_append.mpr ⟨soundElements, ?_⟩)
        exact List.forall_mem_singleton.mpr (soundValue.mono retains)
      · exact refuse _ _
  | puts =>
      refine (print _).bind fun _ _ _ _ => ?_
      exact .plain rfl

/-! ### Code -/

section Code

set_option linter.unusedSectionVars false

variable {call : Eval.Caller} (calls : ∀ {before : Store} {callee : Value} {arguments : List Value},
  discipline.Sound before callee → discipline.SoundAll before arguments →
  discipline.Yields discipline.Sound before (call callee arguments))

include calls

mutual

theorem expr {before : Store} {context : discipline.Context} {scope : ScopeId}
    (hosts : discipline.Hosts context before scope) (site : Site) (code : Expr)
    (obeys : code.Obeys discipline.toPolicy context site) :
    discipline.Yields discipline.Sound before (Eval.expr call scope site code) := by
  match code with
  | .name name => exact resolve obeys hosts
  | .integer value => exact .plain rfl
  | .string text => exact .plain rfl
  | .boolean value => exact .plain rfl
  | .array items => exact (exprs hosts site 0 items obeys).bind fun _ _ _ sound => array sound
  | .hash pairs =>
      refine (entries hosts site 0 .empty Table.all_empty pairs obeys).bind ?_
      intro later table _ sound
      exact allocate fun last id retains => sound_hash.mpr (sound.mono retains)
  | .unary op operand =>
      refine (expr hosts (0 :: site) operand obeys).bind fun later value _ _ => ?_
      refine ofResult (fun result applied => ?_) fun name same => ?_
      · exact sound_plain later (UnaryOp.apply_isPlain applied)
      · exact UnaryOp.apply_ne_unbound op value name same
  | .binary op left right =>
      refine (expr hosts (0 :: site) left obeys.1).bind fun middle value retains _ => ?_
      refine (expr (discipline.hosts_mono retains hosts) (1 :: site) right obeys.2).bind ?_
      intro later other _ _
      refine ofResult (fun result applied => ?_) fun name same => ?_
      · exact sound_plain later (BinaryOp.apply_isPlain applied)
      · exact BinaryOp.apply_ne_unbound op value other name same
  | .conditional condition consequence none =>
      refine (expr hosts (0 :: site) condition obeys.1).bind fun later value retains _ => ?_
      split
      · exact block (discipline.hosts_mono retains hosts) (1 :: site) 0 .null
          (sound_plain later rfl) consequence obeys.2
      · exact .plain rfl
  | .conditional condition consequence (some alternative) =>
      refine (expr hosts (0 :: site) condition obeys.1).bind fun later value retains _ => ?_
      split
      · exact block (discipline.hosts_mono retains hosts) (1 :: site) 0 .null
          (sound_plain later rfl) consequence obeys.2.1
      · exact block (discipline.hosts_mono retains hosts) (2 :: site) 0 .null
          (sound_plain later rfl) alternative obeys.2.2
  | .function parameters body =>
      refine allocate fun later id retains => Value.all_function ?_
      exact ⟨context, obeys.1, obeys.2, discipline.hosts_mono retains hosts⟩
  | .call callee arguments =>
      refine (expr hosts (0 :: site) callee obeys.1).bind fun middle value retains sound => ?_
      refine (exprs (discipline.hosts_mono retains hosts) site 1 arguments obeys.2).bind ?_
      intro later values retains soundAll
      exact calls (sound.mono retains) soundAll
  | .index left index =>
      refine (expr hosts (0 :: site) left obeys.1).bind fun middle value retains sound => ?_
      refine (expr (discipline.hosts_mono retains hosts) (1 :: site) index obeys.2).bind ?_
      intro later position retains _
      refine ofResult (fun result found => ?_) fun name same => ?_
      · exact Value.All.at trivial (sound.mono retains) found
      · exact Value.at_ne_unbound value position name same

/-- What follows a statement in its list can run where the statement ran. -/
theorem stmt {before : Store} {context : discipline.Context} {scope : ScopeId}
    (hosts : discipline.Hosts context before scope) (site : Site) (code : Stmt)
    (obeys : code.Obeys discipline.toPolicy context site) :
    discipline.Yields (fun later value => discipline.Sound later value ∧
        discipline.Hosts (discipline.after context code) later scope) before
      (Eval.stmt call scope site code) := by
  match code with
  | .define name code =>
      refine (expr hosts site code obeys).bind fun middle value retains sound => ?_
      intro store retainsMore fits
      have grown := Store.Retains.define store scope name value
      have soundHere := sound.mono retainsMore
      refine .ok grown (fits.define scope name soundHere) ⟨soundHere.mono grown, ?_⟩
      exact discipline.hosts_define name code value
        (discipline.hosts_mono (retains.trans retainsMore) hosts)
  | .returning code =>
      exact (expr hosts site code obeys).bind fun _ _ _ sound => returning sound
  | .expr code =>
      intro store retains fits
      have ended := expr hosts site code obeys store retains fits
      simp only [Eval.stmt]
      generalize Eval.expr call scope site code store = outcome at ended
      cases ended with
      | ok retainsMore fits sound =>
          refine .ok retainsMore fits ⟨sound, discipline.hosts_expr code ?_⟩
          exact discipline.hosts_mono (retains.trans retainsMore) hosts
      | returned retainsMore fits sound => exact .returned retainsMore fits sound
      | failed retainsMore fits missing => exact .failed retainsMore fits missing
      | halted why => exact .halted why

theorem exprs {before : Store} {context : discipline.Context} {scope : ScopeId}
    (hosts : discipline.Hosts context before scope) (site : Site) (next : Nat) (items : List Expr)
    (obey : ExprsObey discipline.toPolicy context site next items) :
    discipline.Yields discipline.SoundAll before (Eval.exprs call scope site next items) := by
  match items with
  | [] => exact .pure fun later _ => by simp [SoundAll]
  | item :: items =>
      refine (expr hosts (next :: site) item obey.1).bind fun middle value retains sound => ?_
      have hosts := discipline.hosts_mono retains hosts
      refine (exprs hosts site (next + 1) items obey.2).bind fun later values retains all => ?_
      refine .pure fun last retainsMore => SoundAll.mono ?_ retainsMore
      exact List.forall_mem_cons.mpr ⟨sound.mono retains, all⟩

theorem entries {before : Store} {context : discipline.Context} {scope : ScopeId}
    (hosts : discipline.Hosts context before scope) (site : Site) (next : Nat)
    (table : Table Value) (sound : discipline.SoundTable before table)
    (pairs : List (Expr × Expr))
    (obey : PairsObey discipline.toPolicy context site next pairs) :
    discipline.Yields discipline.SoundTable before
      (Eval.entries call scope site next table pairs) := by
  match pairs with
  | [] => exact .pure fun later retains => sound.mono retains
  | (key, value) :: pairs =>
      refine (expr hosts (next :: site) key obey.1).bind fun middle shown retains soundKey => ?_
      cases known : shown.key with
      | error error =>
          refine failure fun name same => ?_
          subst same
          exact Value.key_ne_unbound shown name known
      | ok key =>
          have hosts := discipline.hosts_mono retains hosts
          refine (expr hosts ((next + 1) :: site) value obey.2.1).bind ?_
          intro later stored retainsMore soundValue
          refine entries (discipline.hosts_mono retainsMore hosts) site (next + 2) _ ?_ pairs
            obey.2.2
          exact Table.All.insert (sound.mono (retains.trans retainsMore)) key
            (soundKey.mono retainsMore) soundValue

theorem block {before : Store} {context : discipline.Context} {scope : ScopeId}
    (hosts : discipline.Hosts context before scope) (site : Site) (next : Nat) (last : Value)
    (sound : discipline.Sound before last) (code : List Stmt)
    (obeys : BlockObeys discipline.toPolicy context site next code) :
    discipline.Yields discipline.Sound before (Eval.block call scope site next last code) := by
  match code with
  | [] => exact .value sound
  | first :: rest =>
      refine (stmt hosts (next :: site) first obeys.1).bind ?_
      rintro later value _ ⟨sound, hosts⟩
      exact block hosts site (next + 1) value sound rest obeys.2

end

/-- The body of a function runs in a new scope inside the one that hosts its literal. -/
theorem applyClosure {closure : Closure} {arguments : List Value}
    (accepts : discipline.Accepts before closure)
    (sound : discipline.SoundAll before arguments) :
    discipline.Yields discipline.Sound before (Eval.applyClosure call closure arguments) := by
  obtain ⟨context, _, obeys, hosts⟩ := accepts
  intro store retains fits
  have hostsHere := discipline.hosts_mono retains hosts
  have enters := discipline.hosts_enter closure.parameters arguments hostsHere
  have fitsInside := fits.enclose hostsHere closure.parameters (sound.mono retains)
  let bindings := (Eval.bindArguments closure.parameters arguments).reverse
  let fresh := (store.enclose closure.scope bindings).2
  let event := Event.function closure.parameters.length arguments.length
    (fresh.depth store.scopes.size)
  have noted : fresh.Retains (fresh.note event) := .of_scopes rfl
  have body := (block calls enters closure.site 0 .null (sound_plain fresh rfl) closure.body
    obeys).catchReturn
  exact (body (fresh.note event) noted (fitsInside.of_scopes rfl)).trans
    ((Store.Retains.enclose store closure.scope bindings).trans noted)

end Code

theorem builtin (builtin : Builtin) {arguments : List Value}
    (sound : discipline.SoundAll before arguments) (depth : Nat) :
    discipline.Yields discipline.Sound before
      (Eval.apply depth (.builtin builtin) arguments) := by
  unfold Eval.apply
  exact (note _).bind fun _ _ retains _ => run builtin (sound.mono retains)

theorem apply (depth : Nat) {before : Store} {callee : Value} {arguments : List Value}
    (sound : discipline.Sound before callee) (soundAll : discipline.SoundAll before arguments) :
    discipline.Yields discipline.Sound before (Eval.apply depth callee arguments) := by
  -- the body of a function runs with the smaller bound, from a later store and with other values
  induction depth generalizing before callee arguments with
  | zero =>
      cases callee with
      | builtin which => exact builtin which soundAll 0
      | function id closure => exact fun _ _ _ => .halted .exhausted
      | _ => exact failure fun _ same => by cases same
  | succ depth ih =>
      cases callee with
      | builtin which => exact builtin which soundAll (depth + 1)
      | function id closure => exact applyClosure ih sound.self soundAll
      | _ => exact failure fun _ same => by cases same

end Yields

/-! ## New sessions -/

theorem fits_start {bare : Store} (empty : bare.scopes = #[]) {context : discipline.Context}
    (hosts : discipline.Hosts context (Session.start bare).2 (Session.start bare).1.root) :
    discipline.Fits (Session.start bare).2 := by
  have scopes : (Session.start bare).2.scopes = #[⟨[], none, 0⟩] := by
    simp [Session.start, Store.addTop, empty]
  have root : (Session.start bare).1.root = 0 := by
    simp [Session.start, Store.addTop, Store.add, empty]
  refine ⟨fun id inside => ?_, fun id name value found => ?_⟩
  · rw [scopes] at inside
    obtain rfl : id = 0 := Nat.lt_one_iff.mp inside
    exact ⟨context, root ▸ hosts⟩
  · rw [Store.binding?, scopes] at found
    cases id with
    | zero => cases found
    | succ id => cases found

/-! ## Seen from outside -/

def Settled (discipline : Discipline) (store : Store) : Except Unwind Value → Prop
  | .ok value => discipline.Sound store value
  | .error (.returned value) => discipline.Sound store value
  | .error (.failed error) => ∀ name, error = .unbound name → discipline.Missing name

theorem Fits.settle (fits : discipline.Fits store) {eval : Eval Value}
    (yields : discipline.Yields discipline.Sound store eval) {result : Except Unwind Value}
    (ran : Evaluation.settle eval store = .ok result later) :
    store.Retains later ∧ discipline.Fits later ∧ discipline.Settled later result := by
  have ended := yields store (.refl store) fits
  unfold Evaluation.settle at ran
  generalize eval store = outcome at ended ran
  cases ended with
  | ok retains fits sound | returned retains fits sound | failed retains fits sound =>
      cases ran
      exact ⟨retains, fits, sound⟩
  | halted why => cases ran

/-- Code that is not a whole program gives a sound value, or a sound value wrapped as a `return`, or
an error. -/
theorem Fits.inner (fits : discipline.Fits store) {eval : Eval Value}
    (yields : discipline.Yields discipline.Sound store eval) {value : Value}
    (ran : Evaluation.inner eval store = .ok value later) :
    store.Retains later ∧ discipline.Fits later ∧
      ((∃ id error, value = .error id error ∧
          ∀ name, error = .unbound name → discipline.Missing name) ∨
        (∃ id inner, value = .returned id inner ∧ discipline.Sound later inner) ∨
        discipline.Sound later value) := by
  obtain ⟨result, middle, settled, ran⟩ := Run.bind_eq_ok ran
  obtain ⟨retains, fits, settled⟩ := fits.settle yields settled
  have issued : middle.Retains middle.issue.2 := .of_scopes rfl
  match result with
  | .ok value =>
      cases ran
      exact ⟨retains, fits, .inr (.inr settled)⟩
  | .error (.returned inner) =>
      cases ran
      exact ⟨retains.trans issued, fits.of_scopes rfl,
        .inr (.inl ⟨_, inner, rfl, Sound.mono settled issued⟩)⟩
  | .error (.failed error) =>
      cases ran
      exact ⟨retains.trans issued, fits.of_scopes rfl, .inl ⟨_, error, rfl, settled⟩⟩

/-- A program gives a sound value or an error, never a wrapped `return`. -/
theorem Fits.program (fits : discipline.Fits store) {context : discipline.Context}
    {scope : ScopeId} (hosts : discipline.Hosts context store scope) {site : Site}
    {code : Program} (obeys : BlockObeys discipline.toPolicy context site 0 code.statements)
    {depth : Nat} {value : Value}
    (ran : Evaluation.program depth scope site code store = .ok value later) :
    store.Retains later ∧ discipline.Fits later ∧
      ((∃ id error, value = .error id error ∧
          ∀ name, error = .unbound name → discipline.Missing name) ∨
        discipline.Sound later value) := by
  rw [Evaluation.program_eq_block] at ran
  obtain ⟨_, noted, announced, ran⟩ := Run.bind_eq_ok ran
  cases announced
  obtain ⟨result, middle, settled, ran⟩ := Run.bind_eq_ok ran
  have announced : store.Retains (store.note (.program code.statements.length)) := .of_scopes rfl
  have yields : discipline.Yields _ _ _ := .block (.apply depth)
    (discipline.hosts_mono announced hosts) site 0 .null (sound_plain _ rfl) code.statements obeys
  have fitsNoted : discipline.Fits (store.note (.program code.statements.length)) :=
    fits.of_scopes rfl
  obtain ⟨retains, fits, settled⟩ := fitsNoted.settle yields settled
  have retains := announced.trans retains
  match result with
  | .ok value =>
      cases ran
      exact ⟨retains, fits, .inr settled⟩
  | .error (.returned value) =>
      cases ran
      exact ⟨retains, fits, .inr settled⟩
  | .error (.failed error) =>
      cases ran
      exact ⟨retains.trans (.of_scopes rfl), fits.of_scopes rfl, .inl ⟨_, error, rfl, settled⟩⟩

end Discipline

end Scriptlet
