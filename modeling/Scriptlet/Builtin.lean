/-!
# Builtins

The functions that come with the language. A name of a program means one of them only if no scope
binds it.
-/
set_option autoImplicit false

namespace Scriptlet

inductive Builtin where
  | len
  | first
  | last
  | rest
  | push
  | puts
deriving DecidableEq, Repr

namespace Builtin

def name : Builtin → String
  | .len => "len"
  | .first => "first"
  | .last => "last"
  | .rest => "rest"
  | .push => "push"
  | .puts => "puts"

def all : List Builtin :=
  [.len, .first, .last, .rest, .push, .puts]

def ofName? (name : String) : Option Builtin :=
  all.find? fun builtin => builtin.name == name

end Builtin

end Scriptlet
