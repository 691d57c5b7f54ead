import Mathlib.Logic.Relation
import Scriptlet.Proofs.Eval.Frame
import Scriptlet.Proofs.Eval.Simulation
import Scriptlet.Session

/-!
# Calls are repeatable

A call leaves all scopes as they are, so that the same call later finds everything it found before
and only gets other numbers for what it makes. The store of the later call therefore runs alongside
that of the first one, under the renaming that lets old numbers stay and moves the new ones up.

With both stores the same, the simulation says that evaluation keeps a store well formed, which
makes it true of every store that programs can reach.
-/
set_option autoImplicit false

namespace Scriptlet

/-! ## The renaming between two calls -/

def shifted (old added id : Nat) : Nat :=
  if id < old then id else id + added

theorem strictMono_shifted (old added : Nat) : StrictMono (shifted old added) := by
  intro a b smaller
  unfold shifted
  split <;> split <;> omega

theorem shifted_of_lt {old added id : Nat} (isOld : id < old) : shifted old added id = id :=
  if_pos isOld

theorem shifted_of_le {old added id : Nat} (isNew : old ≤ id) : shifted old added id = id + added :=
  if_neg (Nat.not_lt_of_le isNew)

/-- What is given out next in the first store moves to what is given out next in the second. -/
theorem shifted_next {old more : Nat} (grown : old ≤ more) (later : Nat) :
    shifted old (more - old) (old + later) = more + later := by
  rw [shifted_of_le (Nat.le_add_right old later)]
  omega

namespace Store

/-- Numbers of the store stay; those given out from now on move behind the numbers of the other
store. -/
def renamingTo (store other : Store) : Renaming where
  scope := shifted store.scopes.size (other.scopes.size - store.scopes.size)
  object := shifted store.issued (other.issued - store.issued)
  scope_mono := strictMono_shifted _ _
  object_mono := strictMono_shifted _ _

variable {store other later middle : Store}

theorem rename_of_holds {value : Value} (holds : store.Holds value) :
    value.rename (store.renamingTo other) = value :=
  Value.rename_of_within (fun _ => shifted_of_lt) (fun _ => shifted_of_lt) holds

theorem map_rename_of_holds {values : List Value} (holds : ∀ value ∈ values, store.Holds value) :
    values.map (Value.rename (store.renamingTo other)) = values :=
  (List.map_congr_left fun value isIn => rename_of_holds (holds value isIn)).trans (List.map_id _)

theorem rename_scope_of_valid (valid : store.Valid) {number : Nat} {scope : Scope}
    (found : store.scopes[number]? = some scope) :
    scope.rename (store.renamingTo other) = scope := by
  have within := valid number scope found
  have inside : number < store.scopes.size := (Array.getElem?_eq_some_iff.mp found).1
  have bindings : scope.bindings.map (Prod.map id (Value.rename (store.renamingTo other))) =
      scope.bindings := by
    refine (List.map_congr_left fun binding isIn => ?_).trans (List.map_id _)
    exact Prod.ext rfl (rename_of_holds (within.bindings binding isIn))
  have outer : scope.outer.map (store.renamingTo other).scope = scope.outer := by
    cases around : scope.outer with
    | none => rfl
    | some outer =>
        have smaller := within.outer outer around
        exact congrArg some (shifted_of_lt (smaller.trans inside))
  have session : (store.renamingTo other).scope scope.session = scope.session :=
    shifted_of_lt within.session
  rw [Scope.rename, bindings, outer, session]

def parallel (store other : Store) : Parallel :=
  ⟨store.renamingTo other, store.output, other.output⟩

theorem alongside (valid : store.Valid) (untouched : store.Untouched other)
    (grows : store.Grows other) : (store.parallel other).Alongside store other := by
  refine ⟨valid, fun id => ?_, shifted_next grows.scopes, shifted_next grows.issued, "", ?_, ?_⟩
  · by_cases old : id < store.scopes.size
    · have stays : (store.renamingTo other).scope id = id := shifted_of_lt old
      rw [parallel, stays, untouched.scopes id old]
      cases found : store.scopes[id]? with
      | none => rfl
      | some scope => rw [Option.map_some, rename_scope_of_valid valid found]
    · have isNew : store.scopes.size ≤ id := Nat.le_of_not_lt old
      have moves : (store.renamingTo other).scope id =
          id + (other.scopes.size - store.scopes.size) := shifted_of_le isNew
      rw [parallel, moves, Array.getElem?_eq_none isNew, Array.getElem?_eq_none (by omega)]
      rfl
  · simp [parallel]
  · simp [parallel]

end Store

/-! ## Endings of calls -/

def Eval.ending : Except EvalError Value → Store → Outcome Store Unwind Value
  | .ok value, later => .ok value later
  | .error error, later => .raised (.failed error) later

/-- The second ending is the first one with other numbers. In particular errors and scalars are the
same, and values are shown in the same way. -/
def Renaming.Repeats (names : Renaming) : Except EvalError Value → Except EvalError Value → Prop
  | .ok value, .ok again =>
    again = value.rename names ∧ again.inspect = value.inspect ∧ again.kind = value.kind ∧
      (value.isPlain = true → again = value)
  | .error error, .error again => again = error
  | _, _ => False

theorem Parallel.Tracks.ended {pair : Parallel} {before later : Store}
    {result : Except EvalError Value} {outcome : Outcome Store Unwind Value}
    (tracks : pair.Tracks pair.Renamed before (Eval.ending result later) outcome) :
    ∃ again final, outcome = Eval.ending again final ∧ before.Grows later ∧
      pair.Alongside later final ∧ pair.names.Repeats result again := by
  cases result with
  | ok value =>
      cases tracks with
      | @ok _ final _ again grows along renamed =>
          obtain ⟨rfl, held⟩ := renamed
          exact ⟨.ok _, final, rfl, grows, along, rfl, Value.inspect_rename value,
            Value.kind_rename value, Value.rename_of_isPlain⟩
  | error error =>
      cases tracks with
      | @raised _ final _ grows along held =>
          exact ⟨.error error, final, rfl, grows, along, rfl⟩

namespace Store

variable {store other later middle : Store}

/-- A call from outside, of a value of the store with arguments from the store, has come to an
end. -/
def Called (store later : Store) : Prop :=
  ∃ depth callee arguments result, store.Holds callee ∧
    (∀ argument ∈ arguments, store.Holds argument) ∧
    Eval.apply depth callee arguments store = Eval.ending result later

theorem tracks_apply (valid : store.Valid) (untouched : store.Untouched other)
    (grows : store.Grows other) (depth : Nat) {callee : Value} {arguments : List Value}
    (holds : store.Holds callee) (holdsAll : ∀ argument ∈ arguments, store.Holds argument) :
    (store.parallel other).Tracks (store.parallel other).Renamed store
      (Eval.apply depth callee arguments store) (Eval.apply depth callee arguments other) := by
  have follows : (store.parallel other).Follows _ store _ _ := .apply depth holds holdsAll
  have tracks := follows store other (.refl store) (alongside valid untouched grows)
  rwa [show (store.parallel other).names = store.renamingTo other from rfl, rename_of_holds holds,
    map_rename_of_holds holdsAll] at tracks

theorem Called.untouched (called : store.Called later) : store.Untouched later := by
  obtain ⟨depth, callee, arguments, result, _, _, ran⟩ := called
  refine Eval.quiet_apply depth callee arguments store later ?_
  rw [ran]
  cases result <;> rfl

theorem Called.grows_valid (valid : store.Valid) (called : store.Called later) :
    store.Grows later ∧ later.Valid := by
  obtain ⟨depth, callee, arguments, result, holds, holdsAll, ran⟩ := called
  have tracks := tracks_apply valid (.refl store) (.refl store) depth holds holdsAll
  rw [ran] at tracks
  obtain ⟨_, _, _, grows, along, _⟩ := tracks.ended
  exact ⟨grows, along.valid⟩

/-- Any number of calls leave the scopes as they are. -/
theorem untouched_grows_of_calls (valid : store.Valid)
    (calls : Relation.ReflTransGen Called store later) :
    store.Untouched later ∧ store.Grows later ∧ later.Valid := by
  induction calls with
  | refl => exact ⟨.refl store, .refl store, valid⟩
  | tail _ called ih =>
      obtain ⟨untouched, grows, valid⟩ := ih
      obtain ⟨growsMore, validMore⟩ := called.grows_valid valid
      exact ⟨untouched.trans called.untouched, grows.trans growsMore, validMore⟩

end Store

/-! ## Evaluation keeps stores well formed -/

namespace Evaluation

variable {store later : Store} {value : Value} {scope : Nat}

def HeldBy (store : Store) : Except Unwind Value → Prop
  | .ok value => store.Holds value
  | .error unwind => unwind.HeldBy store

theorem valid_settle (valid : store.Valid) {eval evalTwin : Eval Value}
    (follows : (store.parallel store).Follows (store.parallel store).Renamed store eval evalTwin)
    {result : Except Unwind Value} (ran : settle eval store = .ok result later) :
    later.Valid ∧ HeldBy later result := by
  have along := Store.alongside valid (.refl store) (.refl store)
  have tracks := follows store store (.refl store) along
  unfold settle at ran
  generalize eval store = outcome, evalTwin store = outcomeTwin at tracks ran
  cases tracks with
  | ok grows along renamed =>
      cases ran
      exact ⟨along.valid, renamed.2⟩
  | raised grows along held =>
      cases ran
      exact ⟨along.valid, held⟩
  | halted why => cases ran

theorem valid_inner (valid : store.Valid) {eval evalTwin : Eval Value}
    (follows : (store.parallel store).Follows (store.parallel store).Renamed store eval evalTwin)
    (ran : inner eval store = .ok value later) : later.Valid ∧ later.Holds value := by
  obtain ⟨result, middle, settled, ran⟩ := Run.bind_eq_ok ran
  obtain ⟨validMiddle, held⟩ := valid_settle valid follows settled
  match result with
  | .ok value =>
      cases ran
      exact ⟨validMiddle, held⟩
  | .error (.returned value) =>
      cases ran
      exact ⟨validMiddle.issue, Nat.lt_succ_self _, held.mono ⟨le_rfl, Nat.le_succ _⟩⟩
  | .error (.failed error) =>
      cases ran
      exact ⟨validMiddle.issue, Nat.lt_succ_self _⟩

theorem valid_program (valid : store.Valid) {depth : Nat} {site : Site} {code : Program}
    (inside : scope < store.scopes.size)
    (ran : program depth scope site code store = .ok value later) :
    later.Valid ∧ later.Holds value := by
  rw [program_eq_block] at ran
  obtain ⟨_, noted, announced, ran⟩ := Run.bind_eq_ok ran
  cases announced
  obtain ⟨result, middle, settled, ran⟩ := Run.bind_eq_ok ran
  have validNoted : (store.note (.program code.statements.length)).Valid := valid
  have insideNoted : scope < (store.note (.program code.statements.length)).scopes.size := inside
  obtain ⟨validMiddle, held⟩ := valid_settle validNoted
    (.block (.apply depth) insideNoted site 0 .null trivial code.statements) settled
  match result with
  | .ok value =>
      cases ran
      exact ⟨validMiddle, held⟩
  | .error (.returned value) =>
      cases ran
      exact ⟨validMiddle, held⟩
  | .error (.failed error) =>
      cases ran
      exact ⟨validMiddle.issue, Nat.lt_succ_self _⟩

theorem valid_node (valid : store.Valid) {depth : Nat} {site : Site} {code : Node}
    (inside : scope < store.scopes.size)
    (ran : node depth scope site code store = .ok value later) :
    later.Valid ∧ later.Holds value := by
  match code with
  | .program code => exact valid_program valid inside ran
  | .block code =>
      exact valid_inner valid (.block (.apply depth) inside site 0 .null trivial code) ran
  | .stmt code => exact valid_inner valid (.stmt (.apply depth) inside site code) ran
  | .expr code => exact valid_inner valid (.expr (.apply depth) inside site code) ran

/-- Wherever an evaluation ends, the store is well formed again and holds the value. -/
theorem valid_fresh (valid : store.Valid) {depth : Nat} {code : Node}
    (inside : scope < store.scopes.size)
    (ran : fresh depth scope code store = .ok value later) : later.Valid ∧ later.Holds value := by
  obtain ⟨unit, numbered, issued, ran⟩ := Run.bind_eq_ok ran
  cases issued
  exact valid_node valid.issue inside ran

end Evaluation

/-! ## Stores that programs reach -/

namespace Store

variable {store later middle : Store}

/-- The stores that come about when code is evaluated in sessions, sessions start and end, and
functions are called from outside. -/
inductive Reached : Store → Prop
  | empty (register : Register) : Reached ⟨#[], register, 0, "", #[]⟩
  | noted {store : Store} (reached : Reached store) (event : Event) : Reached (store.note event)
  | started {store : Store} (reached : Reached store) : Reached (Session.start store).2
  | closed {store : Store} (reached : Reached store) (session : Session) :
    Reached (session.close store)
  | evaluated {store later : Store} {depth scope : Nat} {code : Node} {value : Value}
    (reached : Reached store) (inside : scope < store.scopes.size)
    (ran : Evaluation.fresh depth scope code store = .ok value later) : Reached later
  | called {store later : Store} (reached : Reached store) (called : store.Called later) :
    Reached later

theorem Valid.start (valid : store.Valid) : (Session.start store).2.Valid := by
  intro id scope found
  simp only [Session.start, addTop, scopes_add, Array.getElem?_push] at found
  simp only [Session.start, addTop, scopes_add, Array.size_push]
  split at found
  · cases found
    exact ⟨nofun, Nat.lt_succ_self _, by simp⟩
  · exact (valid id scope found).mono (Nat.le_succ _) le_rfl

theorem Valid.close (valid : store.Valid) (session : Session) : (session.close store).Valid := by
  intro id scope found
  simp only [Session.close, getElem?_emptied, Option.map_eq_some_iff] at found
  obtain ⟨old, known, rfl⟩ := found
  have within := valid id old known
  simp only [Session.close, size_emptied]
  split
  · exact ⟨within.outer, within.session, by simp⟩
  · exact within

theorem Reached.valid (reached : store.Reached) : store.Valid := by
  induction reached with
  | empty =>
      intro id scope found
      cases found
  | noted _ event ih => exact ih
  | started _ ih => exact ih.start
  | closed _ session ih => exact ih.close session
  | evaluated _ inside ran ih => exact (Evaluation.valid_fresh ih inside ran).1
  | called _ called ih => exact (called.grows_valid ih).2

end Store

/-! ## The same call again -/

/-- How the two calls correspond: what was there before the first is itself, and what the first one
made is carried in order to what the second one made, contents included. -/
structure Renaming.Carries (names : Renaming) (store later middle final : Store) : Prop where
  oldScopes : ∀ id < store.scopes.size, names.scope id = id
  oldObjects : ∀ id < store.issued, names.object id = id
  newScopes : ∀ id, store.scopes.size ≤ id → id < later.scopes.size →
    middle.scopes.size ≤ names.scope id ∧ names.scope id < final.scopes.size
  newObjects : ∀ id, store.issued ≤ id → id < later.issued →
    middle.issued ≤ names.object id ∧ names.object id < final.issued
  contents : ∀ id < later.scopes.size,
    final.scopes[names.scope id]? = later.scopes[id]?.map (Scope.rename names)

theorem Parallel.Alongside.carries {store later middle final : Store}
    (before : (store.parallel middle).Alongside store middle)
    (after : (store.parallel middle).Alongside later final) :
    (store.renamingTo middle).Carries store later middle final := by
  have scopeMono := (store.renamingTo middle).scope_mono
  have objectMono := (store.renamingTo middle).object_mono
  refine ⟨fun id => shifted_of_lt, fun id => shifted_of_lt, fun id isNew made => ⟨?_, ?_⟩,
    fun id isNew made => ⟨?_, ?_⟩, fun id _ => after.scopes id⟩
  · exact (before.nextScope 0).symm.trans_le (scopeMono.monotone isNew)
  · exact (scopeMono made).trans_eq (after.nextScope 0)
  · exact (before.nextObject 0).symm.trans_le (objectMono.monotone isNew)
  · exact (objectMono made).trans_eq (after.nextObject 0)

/-- A call that ends, with a value or with an error, ends in the same way whenever it is made again,
and prints the same text. Only the numbers of what it makes are different ones. -/
theorem apply_repeatable (depth : Nat) (callee : Value) (arguments : List Value)
    (store later middle : Store) (result : Except EvalError Value) (reached : store.Reached)
    (holds : store.Holds callee) (holdsAll : ∀ argument ∈ arguments, store.Holds argument)
    (ran : Eval.apply depth callee arguments store = Eval.ending result later)
    (calls : Relation.ReflTransGen Store.Called later middle) :
    ∃ names again final text,
      Eval.apply depth callee arguments middle = Eval.ending again final ∧
      later.output = store.output ++ text ∧ final.output = middle.output ++ text ∧
      Renaming.Repeats names result again ∧ names.Carries store later middle final := by
  -- the first call is one more of the calls before the second
  have calls : Relation.ReflTransGen Store.Called store middle :=
    .head ⟨depth, callee, arguments, result, holds, holdsAll, ran⟩ calls
  obtain ⟨untouched, grows, _⟩ := Store.untouched_grows_of_calls reached.valid calls
  have tracks := Store.tracks_apply reached.valid untouched grows depth holds holdsAll
  rw [ran] at tracks
  obtain ⟨again, final, ranAgain, _, along, repeats⟩ := tracks.ended
  obtain ⟨text, printed, printedAgain⟩ := along.output
  have carries := (Store.alongside reached.valid untouched grows).carries along
  exact ⟨store.renamingTo middle, again, final, text, ranAgain, printed, printedAgain, repeats,
    carries⟩

/-- A function prints its argument and returns a closure over it. It is called with `"a"`, then with
`"b"`, and with `"a"` again. -/
theorem apply_repeatable_closure :
    ∃ again final, Eval.apply 1
      (.function 1 ⟨["x"], [.expr (.call (.name "puts") [.name "x"]),
        .expr (.function [] [.expr (.name "x")])], 0, [0, 0]⟩) [.string "a"]
      ⟨#[⟨[("f", .function 1 ⟨["x"], [.expr (.call (.name "puts") [.name "x"]),
          .expr (.function [] [.expr (.name "x")])], 0, [0, 0]⟩)], none, 0⟩,
        ⟨[("x", .string "a")], some 0, 0⟩, ⟨[("x", .string "b")], some 0, 0⟩],
        ((Register.empty.enter 0 0).enter 0 1).enter 0 2, 4, "a\nb\n",
        #[.program 1, .function 1 1 2, .builtin "puts", .function 1 1 2, .builtin "puts"]⟩ =
        Eval.ending (.ok again) final ∧
      final.output = "a\nb\na\n" ∧ again.inspect = "fn() \x7b x \x7d" := by
  let body : Block := [.expr (.call (.name "puts") [.name "x"]),
    .expr (.function [] [.expr (.name "x")])]
  let callee : Value := .function 1 ⟨["x"], body, 0, [0, 0]⟩
  let top : Scope := ⟨[("f", callee)], none, 0⟩
  let store : Store := ⟨#[top], Register.empty.enter 0 0, 2, "", #[.program 1]⟩
  let later : Store := ⟨#[top, ⟨[("x", .string "a")], some 0, 0⟩],
    (Register.empty.enter 0 0).enter 0 1, 3, "a\n",
    #[.program 1, .function 1 1 2, .builtin "puts"]⟩
  let value : Value := .function 2 ⟨[], [.expr (.name "x")], 1, [1, 0, 0]⟩
  have defined : Evaluation.fresh 1 0 (.program ⟨[.define "f" (.function ["x"] body)]⟩)
      (Session.start .empty).2 = .ok callee store := rfl
  have reached : store.Reached := .evaluated (.started (.empty _)) (by decide) defined
  have ran : Eval.apply 1 callee [.string "a"] store = Eval.ending (.ok value) later := rfl
  have holds : store.Holds callee := ⟨Nat.lt_succ_self 1, Nat.zero_lt_one⟩
  have plain (store : Store) (text : String) : ∀ argument ∈ [Value.string text],
      store.Holds argument := List.forall_mem_singleton.mpr trivial
  have between : later.Called _ :=
    ⟨1, callee, [.string "b"], .ok _, holds.mono ⟨by decide, by decide⟩, plain later "b", rfl⟩
  obtain ⟨names, again, final, text, ranAgain, printed, printedAgain, repeats, _⟩ :=
    apply_repeatable 1 callee [.string "a"] store later _ (.ok value) reached holds
      (plain store "a") ran (.single between)
  obtain rfl : text = "a\n" := by simpa [store, later] using printed.symm
  match again, repeats with
  | .ok again, ⟨_, shown, _⟩ =>
      exact ⟨again, final, ranAgain, printedAgain, shown⟩

end Scriptlet
