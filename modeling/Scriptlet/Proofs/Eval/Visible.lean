import Scriptlet.Proofs.Eval.Chains
import Scriptlet.Proofs.Eval.Unwinding

/-!
# What a scope shows

From a scope one sees the bindings of all scopes of its chain, those of the inner ones first. So for
code that runs in the scope, the store is no more than a list of bindings (`Store.Shows`). A
definition and a call put bindings in front of the list, and whatever runs in scopes of its own
leaves the list as it is.
-/
set_option autoImplicit false

namespace Scriptlet.Store

/-- Names are looked up in the scope as in the list, the first binding of a name counts. -/
structure Shows (store : Store) (scope : ScopeId) (bindings : List (String × Value)) : Prop where
  chained : store.Chained scope (store.chain scope)
  lookup : ∀ name, store.lookup scope name = bindings.lookup name

variable {store before later : Store} {scope outer : ScopeId} {bindings : List (String × Value)}

theorem Shows.lt_size (shows : store.Shows scope bindings) : scope < store.scopes.size :=
  shows.chained.lt_size

theorem findSome?_binding?_congr {chain : List ScopeId} {name : String}
    (same : ∀ id ∈ chain, later.binding? id name = before.binding? id name) :
    (chain.findSome? fun id => later.binding? id name) =
      chain.findSome? fun id => before.binding? id name := by
  induction chain with
  | nil => rfl
  | cons id chain ih =>
      obtain ⟨here, around⟩ := List.forall_mem_cons.mp same
      rw [List.findSome?_cons, List.findSome?_cons, here, ih around]

/-- A scope whose chain is known shows what is found along it. -/
theorem Chained.shows {chain : List ScopeId} (chained : store.Chained scope chain)
    (found : ∀ name, (chain.findSome? fun id => store.binding? id name) = bindings.lookup name) :
    store.Shows scope bindings := by
  refine ⟨?_, fun name => ?_⟩
  · rwa [chained.chain_eq]
  · rw [Store.lookup, chained.chain_eq, found]

theorem shows_start (store : Store) :
    (Session.start store).2.Shows (Session.start store).1.root [] := by
  have found : (Session.start store).2.scopes[store.scopes.size]? =
      some ⟨[], none, store.scopes.size⟩ := by
    simp [Session.start, addTop]
  refine (Chained.top found rfl).shows fun name => ?_
  simp [binding?, found]

theorem Shows.untouched (shows : before.Shows scope bindings) (untouched : before.Untouched later) :
    later.Shows scope bindings := by
  have same : ∀ id ∈ before.chain scope, later.scopes[id]? = before.scopes[id]? :=
    fun id isIn => untouched.scopes id (shows.chained.lt_size_of_mem isIn)
  refine (shows.chained.of_members same).shows fun name => ?_
  rw [← shows.lookup, Store.lookup]
  refine findSome?_binding?_congr fun id isIn => ?_
  rw [binding?, binding?, same id isIn]

theorem Shows.define (shows : store.Shows scope bindings) (name : String) (value : Value) :
    (store.define scope name value).Shows scope ((name, value) :: bindings) := by
  refine (shows.chained.mono (.define store scope name value)).shows fun other => ?_
  have inside := shows.lt_size
  obtain ⟨around, split, falls⟩ : ∃ around, store.chain scope = scope :: around ∧
      ∀ id ∈ around, id < scope := by
    generalize same : store.chain scope = chain
    have chained := same ▸ shows.chained
    cases chained with
    | top _ _ => exact ⟨[], rfl, nofun⟩
    | inside _ _ older chained =>
        exact ⟨_, rfl, fun id isIn => (chained.falling.1 id isIn).trans_lt older⟩
  have elsewhere : (around.findSome? fun id => (store.define scope name value).binding? id other) =
      around.findSome? fun id => store.binding? id other := by
    refine findSome?_binding?_congr fun id isIn => ?_
    rw [binding?_define_eq, if_neg fun here => (falls id isIn).ne here.1]
  have found := shows.lookup other
  rw [Store.lookup, split, List.findSome?_cons] at found
  rw [split, List.findSome?_cons, elsewhere, binding?_define_eq, List.lookup_cons]
  by_cases same : other = name
  · simp [same, inside]
  · simp [same, found, beq_eq_false_iff_ne.mpr same]

theorem Shows.enclose (shows : store.Shows outer bindings) (own : List (String × Value)) :
    (store.enclose outer own).2.Shows store.scopes.size (own ++ bindings) := by
  refine (shows.chained.enclose own).shows fun name => ?_
  have around : ((store.chain outer).findSome? fun id =>
      (store.enclose outer own).2.binding? id name) = store.lookup outer name := by
    refine findSome?_binding?_congr fun id isIn => ?_
    rw [binding?_enclose, if_neg (shows.chained.lt_size_of_mem isIn).ne]
  rw [List.findSome?_cons, around, shows.lookup, binding?_enclose, if_pos rfl, List.lookup_append]
  cases own.lookup name <;> rfl

/-- The body of a function sees the arguments before what the function has captured. -/
theorem Shows.entered (closure : Closure) (shows : store.Shows closure.scope bindings)
    (arguments : List Value) :
    (store.entered closure arguments).Shows store.scopes.size
      ((Eval.bindArguments closure.parameters arguments).reverse ++ bindings) :=
  (shows.enclose _).untouched (untouched_note _ _)

theorem untouched_entered (store : Store) (closure : Closure) (arguments : List Value) :
    store.Untouched (store.entered closure arguments) :=
  (untouched_enclose _ _ _).trans (untouched_note _ _)

theorem untouched_issue (store : Store) : store.Untouched store.issue.2 :=
  ⟨le_rfl, fun _ _ => rfl, "", by simp [issue]⟩

theorem Shows.defineNew (shows : store.Shows scope bindings) (name : String) (value : Value) :
    (store.issue.2.define scope name value).Shows scope ((name, value) :: bindings) :=
  (shows.untouched store.untouched_issue).define name value

theorem Untouched.define (untouched : before.Untouched store) (inside : scope < store.scopes.size)
    (new : before.scopes.size ≤ scope) (name : String) (value : Value) :
    before.Untouched (store.define scope name value) :=
  (frame_define store inside name value (List.mem_singleton_self name)).untouched new untouched

end Scriptlet.Store
