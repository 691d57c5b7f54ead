/-!
# Kinds of values

The coarse types that error messages speak of.
-/
set_option autoImplicit false

namespace Scriptlet

inductive Value.Kind where
  | integer
  | boolean
  | string
  | array
  | hash
  | function
  | builtin
  | error
  | returned
  | null
deriving DecidableEq, Repr

namespace Value.Kind

def text : Kind → String
  | .integer => "INTEGER"
  | .boolean => "BOOLEAN"
  | .string => "STRING"
  | .array => "ARRAY"
  | .hash => "HASH"
  | .function => "FUNCTION"
  | .builtin => "BUILTIN"
  | .error => "ERROR"
  | .returned => "RETURN_VALUE"
  | .null => "NULL"

def all : List Kind :=
  [.integer, .boolean, .string, .array, .hash, .function, .builtin, .error, .returned, .null]

def ofText? (text : String) : Option Kind :=
  all.find? fun kind => kind.text == text

end Value.Kind

end Scriptlet
