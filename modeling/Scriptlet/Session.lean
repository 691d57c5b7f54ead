import Scriptlet.Store

/-!
# Sessions

A session owns a top-level scope and all scopes made inside it. Closing the session empties them,
so that functions which outlive it find nothing there any more.
-/
set_option autoImplicit false

namespace Scriptlet

structure Session where
  root : ScopeId
deriving DecidableEq, Repr

namespace Session

def start (store : Store) : Session × Store :=
  match store.addTop with
  | (root, store) => (⟨root⟩, store)

/-- Ends the session: the scopes of its register lose their bindings and stay where they are. -/
def close (session : Session) (store : Store) : Store :=
  { store.emptied (store.register.scopes session.root) with
    register := store.register.drop session.root }

end Session

end Scriptlet
