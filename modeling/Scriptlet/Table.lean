/-!
# Tables in insertion order

The contents of a hash: entries in the order in which their keys first came. An entry keeps the
value that was given as the key beside the key itself. No two entries have the same key.
-/
set_option autoImplicit false

namespace Scriptlet

inductive Key where
  | integer (value : Int64)
  | boolean (value : Bool)
  | string (text : String)
deriving DecidableEq, Repr

structure Table.Entry (α : Type) where
  key : Key
  shown : α
  value : α

structure Table (α : Type) where
  entries : List (Table.Entry α)

namespace Table

variable {α : Type}

def empty : Table α :=
  ⟨[]⟩

/-- Replaces the entry with the same key where it stands, or adds the entry at the end. -/
def put (entry : Entry α) : List (Entry α) → List (Entry α)
  | [] => [entry]
  | first :: rest =>
    if first.key = entry.key then entry :: rest else first :: put entry rest

def insert (table : Table α) (key : Key) (shown value : α) : Table α :=
  ⟨put ⟨key, shown, value⟩ table.entries⟩

def get? (table : Table α) (key : Key) : Option α :=
  (table.entries.find? fun entry => entry.key = key).map Entry.value

def position? (table : Table α) (key : Key) : Option Nat :=
  table.entries.findIdx? fun entry => entry.key = key

def size (table : Table α) : Nat :=
  table.entries.length

def isEmpty (table : Table α) : Bool :=
  table.entries.isEmpty

def keys (table : Table α) : List Key :=
  table.entries.map Entry.key

end Table

end Scriptlet
