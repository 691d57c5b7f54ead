import Scriptlet.Event
import Scriptlet.Register

/-!
# Scopes

All scopes of a run live in one store and refer to each other by number. A name is looked up along
the chain of a scope: the scope itself, the one around it, and so on to a top-level scope. New
scopes are added at the end, so that the scope around another has the smaller number.
-/
set_option autoImplicit false

namespace Scriptlet

/-- The names bound in one scope, the latest binding first, the scope around it, and the top-level
scope of the session in which it was made. -/
structure Scope where
  bindings : List (String × Value)
  outer : Option ScopeId
  session : ScopeId

def Scope.emptied (scope : Scope) : Scope :=
  { scope with bindings := [] }

@[simp]
theorem Scope.bindings_emptied (scope : Scope) : scope.emptied.bindings = [] :=
  rfl

/-- Everything that an evaluation changes: the scopes and where they are registered, how many
identities were given out, the text printed and the events so far. -/
structure Store where
  scopes : Array Scope
  register : Register
  issued : Nat
  output : String
  log : Array Event

namespace Store

def empty : Store :=
  ⟨#[], .empty, 0, "", #[]⟩

def chainUpTo (store : Store) : Nat → ScopeId → List ScopeId
  | 0, _ => []
  | length + 1, id =>
    match store.scopes[id]? with
    | none => []
    | some scope =>
      match scope.outer with
      | none => [id]
      | some outer => id :: store.chainUpTo length outer

/-- The chain of a scope, from the scope itself outwards. Numbers fall along it, which bounds its
length. -/
def chain (store : Store) (id : ScopeId) : List ScopeId :=
  store.chainUpTo (id + 1) id

def depth (store : Store) (id : ScopeId) : Nat :=
  (store.chain id).length

def binding? (store : Store) (id : ScopeId) (name : String) : Option Value :=
  match store.scopes[id]? with
  | none => none
  | some scope => scope.bindings.lookup name

def lookup (store : Store) (id : ScopeId) (name : String) : Option Value :=
  (store.chain id).findSome? fun scope => store.binding? scope name

def define (store : Store) (id : ScopeId) (name : String) (value : Value) : Store :=
  { store with
    scopes := store.scopes.modify id fun scope =>
      { scope with bindings := (name, value) :: scope.bindings } }

def add (store : Store) (scope : Scope) : ScopeId × Store :=
  let id := store.scopes.size
  (id, { store with
    scopes := store.scopes.push scope
    register := store.register.enter scope.session id })

@[simp]
theorem scopes_add (store : Store) (scope : Scope) :
    (store.add scope).2.scopes = store.scopes.push scope :=
  rfl

@[simp]
theorem issued_add (store : Store) (scope : Scope) : (store.add scope).2.issued = store.issued :=
  rfl

@[simp]
theorem output_add (store : Store) (scope : Scope) : (store.add scope).2.output = store.output :=
  rfl

def addTop (store : Store) : ScopeId × Store :=
  store.add ⟨[], none, store.scopes.size⟩

def sessionOf (store : Store) (id : ScopeId) : ScopeId :=
  match store.scopes[id]? with
  | some scope => scope.session
  | none => id

def enclose (store : Store) (outer : ScopeId) (bindings : List (String × Value)) :
    ScopeId × Store :=
  store.add ⟨bindings, some outer, store.sessionOf outer⟩

def emptied (store : Store) (ids : List ScopeId) : Store :=
  { store with scopes := ids.foldl (fun scopes id => scopes.modify id Scope.emptied) store.scopes }

theorem getElem?_emptied (store : Store) (ids : List ScopeId) (id : ScopeId) :
    (store.emptied ids).scopes[id]? = store.scopes[id]?.map fun scope =>
      if id ∈ ids then scope.emptied else scope := by
  induction ids generalizing store with
  | nil => simp [emptied]
  | cons first rest ih =>
      refine (ih { store with scopes := store.scopes.modify first .emptied }).trans ?_
      rw [Array.getElem?_modify]
      cases store.scopes[id]? <;> grind [Scope.emptied]

theorem size_emptied (store : Store) (ids : List ScopeId) :
    (store.emptied ids).scopes.size = store.scopes.size := by
  induction ids generalizing store with
  | nil => rfl
  | cons first rest ih =>
      exact (ih { store with scopes := store.scopes.modify first .emptied }).trans Array.size_modify

/-- Gives out a number that no object and no unit of code has. -/
def issue (store : Store) : Nat × Store :=
  (store.issued, { store with issued := store.issued + 1 })

def print (store : Store) (text : String) : Store :=
  { store with output := store.output ++ text }

def note (store : Store) (event : Event) : Store :=
  { store with log := store.log.push event }

end Store

end Scriptlet
