import Mathlib.Order.WellFounded
import Scriptlet.Eval.Program
import Scriptlet.Proofs.Eval.Renaming

/-!
# Two evaluations side by side

The same code runs in two stores, one of which is like the other up to the numbers of scopes and
objects (`Parallel.Alongside`). The runs go in step: they ask for new scopes and objects at the
same moments, print the same text, and end in the same way, again up to the numbers
(`Parallel.Follows`). There is one rule for each construct. Between two calls the induction is on
the code, and calls are taken by induction on how deeply they may be nested.

Only the first store has to be well formed (`Store.Valid`), and that it stays so is part of what is
proved.
-/
set_option autoImplicit false

namespace Scriptlet

/-! ## Well-formed stores -/

namespace Scope

structure Within (scopes objects id : Nat) (scope : Scope) : Prop where
  outer : ∀ outer : Nat, scope.outer = some outer → outer < id
  session : scope.session < scopes
  bindings : ∀ binding ∈ scope.bindings, binding.2.Within scopes objects

theorem Within.mono {scopes objects moreScopes moreObjects id : Nat} {scope : Scope}
    (within : scope.Within scopes objects id) (moreScopes_le : scopes ≤ moreScopes)
    (moreObjects_le : objects ≤ moreObjects) : scope.Within moreScopes moreObjects id :=
  ⟨within.outer, within.session.trans_le moreScopes_le, fun binding isIn =>
    (within.bindings binding isIn).mono moreScopes_le moreObjects_le⟩

def rename (names : Renaming) (scope : Scope) : Scope :=
  ⟨scope.bindings.map (Prod.map id (Value.rename names)), scope.outer.map names.scope,
    names.scope scope.session⟩

end Scope

namespace Store

def Holds (store : Store) (value : Value) : Prop :=
  value.Within store.scopes.size store.issued

def HoldsTable (store : Store) (table : Table Value) : Prop :=
  table.Within store.scopes.size store.issued

def Valid (store : Store) : Prop :=
  ∀ (id : Nat) (scope : Scope), store.scopes[id]? = some scope →
    scope.Within store.scopes.size store.issued id

structure Grows (before later : Store) : Prop where
  scopes : before.scopes.size ≤ later.scopes.size
  issued : before.issued ≤ later.issued

variable {before middle later store : Store} {value : Value}

theorem Grows.refl (store : Store) : store.Grows store :=
  ⟨le_rfl, le_rfl⟩

theorem Grows.trans (first : before.Grows middle) (second : middle.Grows later) :
    before.Grows later :=
  ⟨first.scopes.trans second.scopes, first.issued.trans second.issued⟩

theorem Holds.mono (holds : before.Holds value) (grows : before.Grows later) :
    later.Holds value :=
  Value.Within.mono holds grows.scopes grows.issued

theorem HoldsTable.mono {table : Table Value} (holds : before.HoldsTable table)
    (grows : before.Grows later) : later.HoldsTable table :=
  Value.EntriesWithin.mono holds grows.scopes grows.issued

theorem holdsAll_mono {values : List Value} (holds : ∀ value ∈ values, before.Holds value)
    (grows : before.Grows later) : ∀ value ∈ values, later.Holds value :=
  fun value isIn => (holds value isIn).mono grows

/-- The bound on the length of a chain has no effect once it is above the number of the scope. -/
theorem chainUpTo_eq (valid : store.Valid) {id length more : Nat}
    (enough : id < length) (enoughMore : id < more) :
    store.chainUpTo length id = store.chainUpTo more id := by
  induction length generalizing id more with
  | zero => omega
  | succ length ih =>
      obtain ⟨more, rfl⟩ : ∃ less, more = less + 1 := ⟨more - 1, by omega⟩
      unfold chainUpTo
      cases found : store.scopes[id]? with
      | none => rfl
      | some scope =>
          cases around : scope.outer with
          | none => simp only [around]
          | some outer =>
              have smaller := (valid id scope found).outer outer around
              have inner : store.chainUpTo length outer = store.chainUpTo more outer := by
                apply ih <;> omega
              simp only [around, inner]

theorem holds_binding? (valid : store.Valid) {id : ScopeId} {name : String}
    (found : store.binding? id name = some value) : store.Holds value := by
  unfold binding? at found
  split at found
  · cases found
  · rename_i scope known
    obtain ⟨front, back, split, _⟩ := List.lookup_eq_some_iff.mp found
    exact (valid id scope known).bindings (name, value) (by simp [split])

theorem sessionOf_lt (valid : store.Valid) {id : ScopeId} (inside : id < store.scopes.size) :
    store.sessionOf id < store.scopes.size := by
  unfold sessionOf
  split
  · rename_i scope found
    exact (valid id scope found).session
  · exact inside

theorem Valid.issue (valid : store.Valid) : store.issue.2.Valid :=
  fun id scope found => (valid id scope found).mono le_rfl (Nat.le_succ _)

theorem Valid.define (valid : store.Valid) (target : ScopeId) (name : String)
    (holds : store.Holds value) : (store.define target name value).Valid := by
  intro id scope found
  simp only [Store.define, Array.getElem?_modify] at found
  rw [Store.define, Array.size_modify]
  split at found
  · obtain ⟨old, known, rfl⟩ := Option.map_eq_some_iff.mp found
    have within := valid id old known
    exact ⟨within.outer, within.session, List.forall_mem_cons.mpr ⟨holds, within.bindings⟩⟩
  · exact valid id scope found

theorem Valid.enclose (valid : store.Valid) {outer : Nat} (inside : outer < store.scopes.size)
    {bindings : List (String × Value)} (holds : ∀ binding ∈ bindings, store.Holds binding.2) :
    (store.enclose outer bindings).2.Valid := by
  intro id scope found
  simp only [Store.enclose, Store.scopes_add, Array.getElem?_push] at found
  simp only [Store.enclose, Store.scopes_add, Array.size_push]
  refine Scope.Within.mono ?_ (Nat.le_succ _) le_rfl
  split at found
  · rename_i new
    cases found
    refine ⟨fun around same => ?_, sessionOf_lt valid inside, holds⟩
    cases same
    rw [new]
    exact inside
  · exact valid id scope found

theorem holds_lookup (valid : store.Valid) {id : ScopeId} {name : String}
    (found : store.lookup id name = some value) : store.Holds value := by
  obtain ⟨scope, _, found⟩ := List.exists_of_findSome?_eq_some found
  exact holds_binding? valid found

end Store

namespace Unwind

def rename (names : Renaming) : Unwind → Unwind
  | .returned value => .returned (value.rename names)
  | .failed error => .failed error

def HeldBy (store : Store) : Unwind → Prop
  | .returned value => store.Holds value
  | .failed _ => True

end Unwind

/-! ## Stores side by side -/

/-- How one run differs from another: it has other numbers, and something else was printed before
it began. -/
structure Parallel where
  names : Renaming
  printed : String
  printedTwin : String

namespace Parallel

/-- The twin has the scopes of the store under their other numbers, and both will give out the next
numbers in step. -/
structure Alongside (pair : Parallel) (store twin : Store) : Prop where
  valid : store.Valid
  scopes : ∀ id, twin.scopes[pair.names.scope id]? =
    store.scopes[id]?.map (Scope.rename pair.names)
  nextScope : ∀ later, pair.names.scope (store.scopes.size + later) = twin.scopes.size + later
  nextObject : ∀ later, pair.names.object (store.issued + later) = twin.issued + later
  output : ∃ text, store.output = pair.printed ++ text ∧ twin.output = pair.printedTwin ++ text

variable {pair : Parallel} {store twin : Store}

theorem lookup_map_rename (bindings : List (String × Value)) (name : String) :
    (bindings.map (Prod.map id (Value.rename pair.names))).lookup name =
      (bindings.lookup name).map (Value.rename pair.names) := by
  induction bindings with
  | nil => rfl
  | cons binding bindings ih =>
      obtain ⟨other, value⟩ := binding
      simp only [List.map_cons, Prod.map_apply, id_eq, List.lookup_cons]
      split
      · rfl
      · exact ih

namespace Alongside

variable (along : pair.Alongside store twin)

include along

theorem binding? (id : ScopeId) (name : String) :
    twin.binding? (pair.names.scope id) name =
      (store.binding? id name).map (Value.rename pair.names) := by
  unfold Store.binding?
  rw [along.scopes id]
  cases store.scopes[id]? with
  | none => rfl
  | some scope => exact lookup_map_rename scope.bindings name

theorem chainUpTo (length : Nat) (id : ScopeId) :
    twin.chainUpTo length (pair.names.scope id) =
      (store.chainUpTo length id).map pair.names.scope := by
  induction length generalizing id with
  | zero => rfl
  | succ length ih =>
      unfold Store.chainUpTo
      rw [along.scopes id]
      cases store.scopes[id]? with
      | none => rfl
      | some scope =>
          cases around : scope.outer with
          | none => simp [Scope.rename, around]
          | some outer => simp [Scope.rename, around, ih]

/-- The twin allows for a longer chain, since its numbers are larger; it is not used up. -/
theorem chain (id : ScopeId) :
    twin.chain (pair.names.scope id) = (store.chain id).map pair.names.scope := by
  have larger : id ≤ pair.names.scope id := pair.names.scope_mono.le_apply
  unfold Store.chain
  rw [along.chainUpTo]
  rw [Store.chainUpTo_eq along.valid (Nat.lt_succ_of_le larger) (Nat.lt_succ_self id)]

theorem lookup (id : ScopeId) (name : String) :
    twin.lookup (pair.names.scope id) name =
      (store.lookup id name).map (Value.rename pair.names) := by
  unfold Store.lookup
  rw [along.chain, List.findSome?_map]
  induction store.chain id with
  | nil => rfl
  | cons scope chain ih =>
      simp only [List.findSome?_cons, Function.comp_apply, along.binding?]
      cases store.binding? scope name with
      | none => exact ih
      | some value => rfl

theorem sessionOf (id : ScopeId) :
    twin.sessionOf (pair.names.scope id) = pair.names.scope (store.sessionOf id) := by
  unfold Store.sessionOf
  rw [along.scopes id]
  cases store.scopes[id]? <;> rfl

/-! ### Changes of both stores -/

theorem note (event eventTwin : Event) :
    pair.Alongside (store.note event) (twin.note eventTwin) :=
  ⟨along.valid, along.scopes, along.nextScope, along.nextObject, along.output⟩

theorem print (text : String) : pair.Alongside (store.print text) (twin.print text) := by
  obtain ⟨before, printed, printedTwin⟩ := along.output
  refine ⟨along.valid, along.scopes, along.nextScope, along.nextObject, before ++ text, ?_, ?_⟩
  · rw [Store.print, printed, String.append_assoc]
  · rw [Store.print, printedTwin, String.append_assoc]

theorem issue : pair.Alongside store.issue.2 twin.issue.2 := by
  refine ⟨along.valid.issue, along.scopes, along.nextScope, fun later => ?_, along.output⟩
  have next := along.nextObject (1 + later)
  simp only [Store.issue, Nat.add_assoc]
  exact next

theorem define (target : ScopeId) (name : String) {value : Value} (holds : store.Holds value) :
    pair.Alongside (store.define target name value)
      (twin.define (pair.names.scope target) name (value.rename pair.names)) := by
  refine ⟨along.valid.define target name holds, fun id => ?_, ?_, along.nextObject, along.output⟩
  · simp only [Store.define, Array.getElem?_modify, along.scopes id,
      pair.names.scope_mono.injective.eq_iff]
    split
    · cases store.scopes[id]? <;> rfl
    · rfl
  · simpa only [Store.define, Array.size_modify] using along.nextScope

theorem enclose {outer : Nat} (inside : outer < store.scopes.size)
    {bindings : List (String × Value)} (holds : ∀ binding ∈ bindings, store.Holds binding.2) :
    pair.Alongside (store.enclose outer bindings).2
      (twin.enclose (pair.names.scope outer)
        (bindings.map (Prod.map id (Value.rename pair.names)))).2 := by
  have next : pair.names.scope store.scopes.size = twin.scopes.size := along.nextScope 0
  refine ⟨along.valid.enclose inside holds, fun id => ?_, fun later => ?_, along.nextObject,
    along.output⟩
  · simp only [Store.enclose, Store.scopes_add, Array.getElem?_push, ← next, along.scopes id, along.sessionOf,
      pair.names.scope_mono.injective.eq_iff]
    split <;> rfl
  · have nextLater := along.nextScope (1 + later)
    simp only [Store.enclose, Store.scopes_add, Array.size_push, Nat.add_assoc]
    exact nextLater

end Alongside

/-! ## Runs side by side -/

variable {α β : Type}

/-- Two endings alike up to the numbers. What values have to do with each other is given by the
relation, which may depend on the first store. -/
inductive Tracks (pair : Parallel) (related : Store → α → α → Prop) (before : Store) :
    Outcome Store Unwind α → Outcome Store Unwind α → Prop
  | ok {later twin : Store} {value valueTwin : α} (grows : before.Grows later)
      (along : pair.Alongside later twin) (values : related later value valueTwin) :
      Tracks pair related before (.ok value later) (.ok valueTwin twin)
  | raised {later twin : Store} {unwind : Unwind} (grows : before.Grows later)
      (along : pair.Alongside later twin) (held : unwind.HeldBy later) :
      Tracks pair related before (.raised unwind later) (.raised (unwind.rename pair.names) twin)
  | halted (why : Halt) : Tracks pair related before (.halted why) (.halted why)

def Follows (pair : Parallel) (related : Store → α → α → Prop) (before : Store)
    (run runTwin : Eval α) : Prop :=
  ∀ store twin, before.Grows store → pair.Alongside store twin →
    pair.Tracks related store (run store) (runTwin twin)

def Renamed (pair : Parallel) (store : Store) (value valueTwin : Value) : Prop :=
  valueTwin = value.rename pair.names ∧ store.Holds value

def RenamedAll (pair : Parallel) (store : Store) (values valuesTwin : List Value) : Prop :=
  valuesTwin = values.map (Value.rename pair.names) ∧ ∀ value ∈ values, store.Holds value

def RenamedTable (pair : Parallel) (store : Store) (table tableTwin : Table Value) : Prop :=
  tableTwin = table.rename pair.names ∧ store.HoldsTable table

def RenamedFound (pair : Parallel) (store : Store) (found foundTwin : Option Value) : Prop :=
  foundTwin = found.map (Value.rename pair.names) ∧
    ∀ value, found = some value → store.Holds value

theorem Tracks.trans {related : Store → α → α → Prop} {before middle : Store}
    {outcome outcomeTwin : Outcome Store Unwind α} (grows : before.Grows middle)
    (tracks : pair.Tracks related middle outcome outcomeTwin) :
    pair.Tracks related before outcome outcomeTwin := by
  cases tracks with
  | ok growsMore along related => exact .ok (grows.trans growsMore) along related
  | raised growsMore along held => exact .raised (grows.trans growsMore) along held
  | halted why => exact .halted why

namespace Follows

variable {related : Store → α → α → Prop} {relatedNext : Store → β → β → Prop} {before : Store}

theorem bind {run runTwin : Eval α} {next nextTwin : α → Eval β}
    (follows : pair.Follows related before run runTwin)
    (followsNext : ∀ later value valueTwin, before.Grows later → related later value valueTwin →
      pair.Follows relatedNext later (next value) (nextTwin valueTwin)) :
    pair.Follows relatedNext before (run >>= next) (runTwin >>= nextTwin) := by
  intro store twin grows along
  have first := follows store twin grows along
  rw [Run.bind_apply, Run.bind_apply]
  generalize run store = outcome, runTwin twin = outcomeTwin at first
  cases first with
  | ok growsMore along related =>
      -- the rest runs from a later store, which holds all that the first one held
      exact (followsNext _ _ _ (grows.trans growsMore) related _ _ (.refl _) along).trans growsMore
  | raised growsMore along held => exact .raised growsMore along held
  | halted why => exact .halted why

theorem pure {value valueTwin : α}
    (holds : ∀ later, before.Grows later → related later value valueTwin) :
    pair.Follows related before (pure value) (pure valueTwin) :=
  fun store _ grows along => .ok (.refl store) along (holds store grows)

theorem failure (error : EvalError) :
    pair.Follows related before (Run.raise (.failed error)) (Run.raise (.failed error)) :=
  fun store _ _ along => .raised (.refl store) along trivial

theorem returning {value : Value} (holds : before.Holds value) :
    pair.Follows related before (Run.raise (.returned value))
      (Run.raise (.returned (value.rename pair.names))) :=
  fun store _ grows along => .raised (.refl store) along (holds.mono grows)

theorem value {value : Value} (holds : before.Holds value) :
    pair.Follows pair.Renamed before (Pure.pure value) (Pure.pure (value.rename pair.names)) :=
  .pure fun _ grows => ⟨rfl, holds.mono grows⟩

theorem plain {value : Value} (plain : value.isPlain = true) :
    pair.Follows pair.Renamed before (Pure.pure value) (Pure.pure value) :=
  .pure fun _ _ => ⟨(Value.rename_of_isPlain plain).symm, Value.within_of_isPlain plain⟩

theorem ofResult {result : Except EvalError Value}
    (holds : ∀ value, result = .ok value → before.Holds value) :
    pair.Follows pair.Renamed before (Eval.ofResult result)
      (Eval.ofResult (result.map (Value.rename pair.names))) := by
  cases result with
  | error error => exact failure error
  | ok value => exact .value (holds value rfl)

theorem allocate {object objectTwin : ObjectId → Value}
    (alike : ∀ id, objectTwin (pair.names.object id) = (object id).rename pair.names)
    (holds : ∀ later id, before.Grows later → id < later.issued → later.Holds (object id)) :
    pair.Follows pair.Renamed before (Eval.allocate object) (Eval.allocate objectTwin) := by
  intro store twin grows along
  have growsMore : store.Grows store.issue.2 := ⟨le_rfl, Nat.le_succ _⟩
  have next : pair.names.object store.issued = twin.issued := along.nextObject 0
  refine .ok growsMore along.issue ⟨?_, ?_⟩
  · exact next ▸ alike store.issued
  · exact holds _ _ (grows.trans growsMore) (Nat.lt_succ_self _)

theorem array {elements elementsTwin : List Value}
    (renamed : pair.RenamedAll before elements elementsTwin) :
    pair.Follows pair.Renamed before (Eval.allocate fun id => .array id elements)
      (Eval.allocate fun id => .array id elementsTwin) := by
  obtain ⟨rfl, holds⟩ := renamed
  refine allocate (fun id => (Value.rename_array id elements).symm) fun later id grows old => ?_
  exact ⟨old, Value.allWithin_iff.mpr (Store.holdsAll_mono holds grows)⟩

theorem view {see seeTwin : Store → α}
    (sees : ∀ store twin, pair.Alongside store twin → related store (see store) (seeTwin twin)) :
    pair.Follows related before (Run.view see) (Run.view seeTwin) :=
  fun store twin _ along => .ok (.refl store) along (sees store twin along)

/-- What is only to be noted may be seen differently. -/
theorem glance (see seeTwin : Store → α) :
    pair.Follows (fun _ _ _ => True) before (Run.view see) (Run.view seeTwin) :=
  view fun _ _ _ => trivial

theorem modify {change changeTwin : Store → Store}
    (changes : ∀ store twin, before.Grows store → pair.Alongside store twin →
      store.Grows (change store) ∧ pair.Alongside (change store) (changeTwin twin)) :
    pair.Follows (fun _ _ _ => True) before (Run.modify change) (Run.modify changeTwin) := by
  intro store twin grows along
  obtain ⟨growsMore, along⟩ := changes store twin grows along
  exact .ok growsMore along trivial

theorem note (event eventTwin : Event) :
    pair.Follows (fun _ _ _ => True) before (Run.modify fun store => store.note event)
      (Run.modify fun store => store.note eventTwin) :=
  modify fun _ _ _ along => ⟨⟨le_rfl, le_rfl⟩, along.note event eventTwin⟩

theorem print (text : String) :
    pair.Follows (fun _ _ _ => True) before (Run.modify fun store => store.print text)
      (Run.modify fun store => store.print text) :=
  modify fun _ _ _ along => ⟨⟨le_rfl, le_rfl⟩, along.print text⟩

theorem define (scope : ScopeId) (name : String) {value : Value} (holds : before.Holds value) :
    pair.Follows (fun _ _ _ => True) before (Run.modify fun store => store.define scope name value)
      (Run.modify fun store =>
        store.define (pair.names.scope scope) name (value.rename pair.names)) := by
  refine modify fun store twin grows along => ⟨⟨?_, le_rfl⟩, ?_⟩
  · simp [Store.define]
  · exact along.define scope name (holds.mono grows)

theorem resolve (scope : ScopeId) (name : String) :
    pair.Follows pair.Renamed before (Eval.resolve scope name)
      (Eval.resolve (pair.names.scope scope) name) := by
  have lookup : pair.Follows pair.RenamedFound before
      (Run.view fun store => store.lookup scope name)
      (Run.view fun store => store.lookup (pair.names.scope scope) name) :=
    view fun store twin along => ⟨along.lookup scope name, fun _ => Store.holds_lookup along.valid⟩
  refine lookup.bind ?_
  rintro later found _ grows ⟨rfl, holds⟩
  cases found with
  | some value => exact .value (holds value rfl)
  | none =>
      cases Builtin.ofName? name with
      | some builtin => exact .plain rfl
      | none => exact failure _

/-- The new scopes of both sides correspond. -/
theorem enclose {outer : Nat} {bindings : List (String × Value)}
    (inside : outer < before.scopes.size) (holds : ∀ binding ∈ bindings, before.Holds binding.2) :
    pair.Follows (fun later scope scopeTwin => scopeTwin = pair.names.scope scope ∧
        scope < later.scopes.size) before
      (Run.step fun store => store.enclose outer bindings)
      (Run.step fun store => store.enclose (pair.names.scope outer)
        (bindings.map (Prod.map id (Value.rename pair.names)))) := by
  intro store twin grows along
  have grown : store.Grows (store.enclose outer bindings).2 := by
    constructor <;> simp [Store.enclose]
  have opened := along.enclose (inside.trans_le grows.scopes)
    fun binding isIn => (holds binding isIn).mono grows
  refine .ok grown opened ⟨(along.nextScope 0).symm, ?_⟩
  simp

theorem catchReturn {eval evalTwin : Eval Value}
    (follows : pair.Follows pair.Renamed before eval evalTwin) :
    pair.Follows pair.Renamed before (Eval.catchReturn eval) (Eval.catchReturn evalTwin) := by
  intro store twin grows along
  have ended := follows store twin grows along
  unfold Eval.catchReturn
  generalize eval store = outcome, evalTwin twin = outcomeTwin at ended
  cases ended with
  | ok growsMore along related => exact .ok growsMore along related
  | halted why => exact .halted why
  | @raised later twin unwind growsMore along held =>
      cases unwind with
      | returned value => exact .ok growsMore along ⟨rfl, held⟩
      | failed error => exact .raised growsMore along held

/-! ### Builtins -/

theorem refuse (builtin : Builtin) (refusal : Builtin.Refusal) :
    pair.Follows related before (builtin.refuse refusal) (builtin.refuse refusal) :=
  failure _

theorem onlyArgument (builtin : Builtin) {arguments : List Value}
    (holds : ∀ argument ∈ arguments, before.Holds argument) :
    pair.Follows pair.Renamed before (builtin.onlyArgument arguments)
      (builtin.onlyArgument (arguments.map (Value.rename pair.names))) := by
  match arguments with
  | [] => exact refuse builtin _
  | [argument] => exact .value (holds argument (List.mem_singleton_self argument))
  | _ :: _ :: others =>
      simp only [Builtin.onlyArgument, List.map_cons, List.length_cons, List.length_map]
      exact refuse builtin _

theorem elementsOf (builtin : Builtin) {value : Value} (holds : before.Holds value) :
    pair.Follows pair.RenamedAll before (builtin.elementsOf value)
      (builtin.elementsOf (value.rename pair.names)) := by
  cases value with
  | array id elements =>
      rw [Value.rename_array]
      exact .pure fun later grows =>
        ⟨rfl, Store.holdsAll_mono (Value.allWithin_iff.mp holds.2) grows⟩
  | _ => exact refuse builtin _

theorem onElements (builtin : Builtin) {arguments : List Value}
    (holds : ∀ argument ∈ arguments, before.Holds argument)
    {next nextTwin : List Value → Eval Value}
    (followsNext : ∀ later elements, (∀ element ∈ elements, later.Holds element) →
      pair.Follows pair.Renamed later (next elements)
        (nextTwin (elements.map (Value.rename pair.names)))) :
    pair.Follows pair.Renamed before
      (builtin.onlyArgument arguments >>= fun argument => builtin.elementsOf argument >>= next)
      (builtin.onlyArgument (arguments.map (Value.rename pair.names)) >>= fun argument =>
        builtin.elementsOf argument >>= nextTwin) := by
  refine (onlyArgument builtin holds).bind ?_
  rintro later argument _ grows ⟨rfl, held⟩
  refine (elementsOf builtin held).bind ?_
  rintro last elements _ grows ⟨rfl, heldAll⟩
  exact followsNext last elements heldAll

theorem run (builtin : Builtin) {arguments : List Value}
    (holds : ∀ argument ∈ arguments, before.Holds argument) :
    pair.Follows pair.Renamed before (builtin.run arguments)
      (builtin.run (arguments.map (Value.rename pair.names))) := by
  cases builtin with
  | len =>
      refine (onlyArgument _ holds).bind ?_
      rintro later argument _ grows ⟨rfl, held⟩
      rw [Builtin.measure_rename]
      cases Builtin.measure argument with
      | ok size => exact .plain rfl
      | error refusal => exact refuse _ refusal
  | first =>
      refine onElements .first holds fun later elements held => ?_
      rw [List.head?_map, Value.getD_rename]
      exact .value (Value.within_getD fun value found => held value (List.mem_of_mem_head? found))
  | last =>
      refine onElements .last holds fun later elements held => ?_
      rw [List.getLast?_map, Value.getD_rename]
      exact .value (Value.within_getD fun value found => held value (List.mem_of_getLast? found))
  | rest =>
      refine onElements .rest holds fun later elements held => ?_
      cases elements with
      | nil => exact .plain rfl
      | cons first others => exact array ⟨rfl, (List.forall_mem_cons.mp held).2⟩
  | push =>
      match arguments with
      | [list, value] =>
          simp only [List.forall_mem_cons] at holds
          refine (elementsOf _ holds.1).bind ?_
          rintro later elements _ grows ⟨rfl, held⟩
          refine array ⟨by simp, ?_⟩
          rw [List.forall_mem_append, List.forall_mem_singleton]
          exact ⟨held, holds.2.1.mono grows⟩
      | [] | [_] => exact refuse _ _
      | _ :: _ :: _ :: others =>
          simp only [Builtin.run, List.map_cons, List.length_cons, List.length_map]
          exact refuse _ _
  | puts =>
      have alike : (arguments.map (Value.rename pair.names)).map (fun value =>
          value.inspect ++ "\n") = arguments.map fun value => value.inspect ++ "\n" := by
        simp
      simp only [Builtin.run, alike]
      exact (print _).bind fun _ _ _ _ _ => .plain rfl

/-! ### Code -/

section Code

set_option linter.unusedSectionVars false

variable {call : Eval.Caller} (calls : ∀ {before : Store} {callee : Value} {arguments : List Value},
  before.Holds callee → (∀ argument ∈ arguments, before.Holds argument) →
  pair.Follows pair.Renamed before (call callee arguments)
    (call (callee.rename pair.names) (arguments.map (Value.rename pair.names))))

include calls

mutual

theorem expr {before : Store} {scope : Nat} (inside : scope < before.scopes.size) (site : Site)
    (code : Expr) :
    pair.Follows pair.Renamed before (Eval.expr call scope site code)
      (Eval.expr call (pair.names.scope scope) site code) := by
  match code with
  | .name name => exact resolve scope name
  | .integer value => exact .plain rfl
  | .string text => exact .plain rfl
  | .boolean value => exact .plain rfl
  | .array items =>
      refine (exprs inside site 0 items).bind ?_
      intro later elements elementsTwin grows renamed
      exact array renamed
  | .hash pairs =>
      refine (entries inside site 0 .empty trivial pairs).bind ?_
      rintro later table _ grows ⟨rfl, held⟩
      refine allocate (fun id => (Value.rename_hash id table).symm) fun last id grows old => ?_
      exact ⟨old, held.mono grows⟩
  | .unary op operand =>
      refine (expr inside (0 :: site) operand).bind ?_
      rintro later operand _ grows ⟨rfl, held⟩
      rw [UnaryOp.apply_rename]
      exact .ofResult fun value applied => Value.within_of_isPlain (UnaryOp.apply_isPlain applied)
  | .binary op left right =>
      refine (expr inside (0 :: site) left).bind ?_
      rintro later left _ grows ⟨rfl, held⟩
      refine (expr (inside.trans_le grows.scopes) (1 :: site) right).bind ?_
      rintro last right _ grows ⟨rfl, heldRight⟩
      rw [BinaryOp.apply_rename]
      exact .ofResult fun value applied => Value.within_of_isPlain (BinaryOp.apply_isPlain applied)
  | .conditional condition consequence none =>
      refine (expr inside (0 :: site) condition).bind ?_
      rintro later condition _ grows ⟨rfl, held⟩
      rw [Value.isTruthy_rename]
      split
      · exact block (inside.trans_le grows.scopes) (1 :: site) 0 .null trivial consequence
      · exact .plain rfl
  | .conditional condition consequence (some alternative) =>
      refine (expr inside (0 :: site) condition).bind ?_
      rintro later condition _ grows ⟨rfl, held⟩
      rw [Value.isTruthy_rename]
      split
      · exact block (inside.trans_le grows.scopes) (1 :: site) 0 .null trivial consequence
      · exact block (inside.trans_le grows.scopes) (2 :: site) 0 .null trivial alternative
  | .function parameters body =>
      refine allocate (fun id => rfl) fun later id grows old => ?_
      exact ⟨old, inside.trans_le grows.scopes⟩
  | .call callee arguments =>
      refine (expr inside (0 :: site) callee).bind ?_
      rintro later callee _ grows ⟨rfl, held⟩
      refine (exprs (inside.trans_le grows.scopes) site 1 arguments).bind ?_
      rintro last arguments _ grows ⟨rfl, heldArguments⟩
      exact calls (held.mono grows) heldArguments
  | .index left index =>
      refine (expr inside (0 :: site) left).bind ?_
      rintro later left _ grows ⟨rfl, held⟩
      refine (expr (inside.trans_le grows.scopes) (1 :: site) index).bind ?_
      rintro last index _ grows ⟨rfl, heldIndex⟩
      rw [Value.at_rename]
      exact .ofResult fun value found => Value.within_at (held.mono grows) found

theorem stmt {before : Store} {scope : Nat} (inside : scope < before.scopes.size) (site : Site)
    (code : Stmt) :
    pair.Follows pair.Renamed before (Eval.stmt call scope site code)
      (Eval.stmt call (pair.names.scope scope) site code) := by
  match code with
  | .define name value =>
      refine (expr inside site value).bind ?_
      rintro later value _ grows ⟨rfl, held⟩
      refine (define scope name held).bind ?_
      rintro last _ _ grows -
      exact .value (held.mono grows)
  | .returning value =>
      refine (expr inside site value).bind ?_
      rintro later value _ grows ⟨rfl, held⟩
      exact returning held
  | .expr value => exact expr inside site value

theorem exprs {before : Store} {scope : Nat} (inside : scope < before.scopes.size) (site : Site)
    (next : Nat) (items : List Expr) :
    pair.Follows pair.RenamedAll before (Eval.exprs call scope site next items)
      (Eval.exprs call (pair.names.scope scope) site next items) := by
  match items with
  | [] => exact .pure fun later grows => ⟨rfl, by simp⟩
  | item :: items =>
      refine (expr inside (next :: site) item).bind ?_
      rintro later value _ grows ⟨rfl, held⟩
      refine (exprs (inside.trans_le grows.scopes) site (next + 1) items).bind ?_
      rintro last values _ growsMore ⟨rfl, heldAll⟩
      refine .pure fun final growsLast => ⟨rfl, Store.holdsAll_mono ?_ growsLast⟩
      exact List.forall_mem_cons.mpr ⟨held.mono growsMore, heldAll⟩

theorem entries {before : Store} {scope : Nat} (inside : scope < before.scopes.size) (site : Site)
    (next : Nat) (table : Table Value) (within : before.HoldsTable table)
    (pairs : List (Expr × Expr)) :
    pair.Follows pair.RenamedTable before (Eval.entries call scope site next table pairs)
      (Eval.entries call (pair.names.scope scope) site next (table.rename pair.names) pairs) := by
  match pairs with
  | [] => exact .pure fun later grows => ⟨rfl, within.mono grows⟩
  | (key, value) :: pairs =>
      refine (expr inside (next :: site) key).bind ?_
      rintro later shown _ grows ⟨rfl, held⟩
      rw [Value.key_rename]
      cases shown.key with
      | error error => exact failure error
      | ok key =>
          refine (expr (inside.trans_le grows.scopes) ((next + 1) :: site) value).bind ?_
          rintro last value _ growsMore ⟨rfl, heldValue⟩
          rw [← Table.insert_rename]
          have grown := grows.trans growsMore
          refine entries (inside.trans_le grown.scopes) site (next + 2) _ ?_ pairs
          exact Table.Within.insert (within.mono grown) key (held.mono growsMore) heldValue

theorem block {before : Store} {scope : Nat} (inside : scope < before.scopes.size) (site : Site)
    (next : Nat) (last : Value) (held : before.Holds last) (code : List Stmt) :
    pair.Follows pair.Renamed before (Eval.block call scope site next last code)
      (Eval.block call (pair.names.scope scope) site next (last.rename pair.names) code) := by
  match code with
  | [] => exact .value held
  | first :: rest =>
      refine (stmt inside (next :: site) first).bind ?_
      rintro later value _ grows ⟨rfl, held⟩
      exact block (inside.trans_le grows.scopes) site (next + 1) value held rest

end

/-- Both bodies run in scopes of their own, which correspond. -/
theorem applyClosure {closure : Closure} {arguments : List Value}
    (inside : closure.scope < before.scopes.size)
    (holds : ∀ argument ∈ arguments, before.Holds argument) :
    pair.Follows pair.Renamed before (Eval.applyClosure call closure arguments)
      (Eval.applyClosure call (closure.rename pair.names)
        (arguments.map (Value.rename pair.names))) := by
  unfold Eval.applyClosure
  simp only [Closure.rename, Eval.bindArguments_rename, ← List.map_reverse]
  refine (enclose inside fun binding isIn =>
    Eval.within_bindArguments _ holds binding (List.mem_reverse.mp isIn)).bind ?_
  rintro later scope _ grows ⟨rfl, inside⟩
  refine (glance _ _).bind ?_
  intro last depth depthTwin grows _
  refine (note _ _).bind ?_
  intro final _ _ growsMore _
  have insideBody := inside.trans_le (grows.trans growsMore).scopes
  exact (block calls insideBody closure.site 0 .null trivial closure.body).catchReturn

end Code

theorem notCallable (value : Value) :
    pair.Follows related before (Run.raise (.failed (.notCallable value.kind)))
      (Run.raise (.failed (.notCallable (value.rename pair.names).kind))) := by
  rw [Value.kind_rename]
  exact failure _

theorem builtin (builtin : Builtin) {arguments : List Value}
    (holds : ∀ argument ∈ arguments, before.Holds argument) (depth : Nat) :
    pair.Follows pair.Renamed before (Eval.apply depth (.builtin builtin) arguments)
      (Eval.apply depth (.builtin builtin) (arguments.map (Value.rename pair.names))) := by
  unfold Eval.apply
  exact (note _ _).bind fun _ _ _ grows _ => run builtin (Store.holdsAll_mono holds grows)

theorem apply (depth : Nat) {before : Store} {callee : Value} {arguments : List Value}
    (holds : before.Holds callee) (holdsAll : ∀ argument ∈ arguments, before.Holds argument) :
    pair.Follows pair.Renamed before (Eval.apply depth callee arguments)
      (Eval.apply depth (callee.rename pair.names)
        (arguments.map (Value.rename pair.names))) := by
  -- the body of a function runs with the smaller bound, from a later store and with other values
  induction depth generalizing before callee arguments with
  | zero =>
      cases callee with
      | builtin which => exact builtin which holdsAll 0
      | function id closure => exact fun _ _ _ _ => .halted .exhausted
      | _ => exact notCallable _
  | succ depth ih =>
      cases callee with
      | builtin which => exact builtin which holdsAll (depth + 1)
      | function id closure => exact applyClosure ih holds.2 holdsAll
      | _ => exact notCallable _

end Follows

end Parallel

end Scriptlet
