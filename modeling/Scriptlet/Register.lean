import Scriptlet.Value

/-!
# Registers

A session finds its scopes through its register when it ends. A register keeps no scope in use:
when a scope is entered, scopes that are out of use may be struck out.
-/
set_option autoImplicit false

namespace Scriptlet

structure Register.Entry where
  session : ScopeId
  scope : ScopeId
deriving DecidableEq

/-- The registers of all sessions, the latest entry first. -/
structure Register where
  entries : List Register.Entry
  /-- The test that entries have to pass when a scope is entered, if they are looked through then.
  What is in use passes. -/
  inUse? : ScopeId → Option (ScopeId → Bool)

namespace Register

def empty : Register :=
  ⟨[], fun _ => none⟩

def kept (register : Register) (session scope : ScopeId) : List Entry :=
  match register.inUse? scope with
  | none => register.entries
  | some inUse =>
    register.entries.filter fun entry => entry.session ≠ session || inUse entry.scope

def enter (register : Register) (session scope : ScopeId) : Register :=
  { register with entries := ⟨session, scope⟩ :: register.kept session scope }

def scopes (register : Register) (session : ScopeId) : List ScopeId :=
  (register.entries.filter fun entry => entry.session = session).map Entry.scope

def drop (register : Register) (session : ScopeId) : Register :=
  { register with entries := register.entries.filter fun entry => entry.session ≠ session }

end Register

end Scriptlet
