/-!
# Programs

The tree of a program: statements over expressions. Names, texts and integers are arbitrary here;
which of them a source text can give is a matter of reading.
-/
set_option autoImplicit false

namespace Scriptlet

inductive UnaryOp where
  | negate
  | not
deriving DecidableEq, Repr

inductive BinaryOp where
  | add
  | subtract
  | multiply
  | divide
  | less
  | greater
  | equal
  | notEqual
deriving DecidableEq, Repr

mutual

/-- Expressions. The pairs of a hash stand in source order. -/
inductive Expr where
  | name (name : String)
  | integer (value : Int64)
  | string (text : String)
  | boolean (value : Bool)
  | array (items : List Expr)
  | hash (pairs : List (Expr × Expr))
  | unary (op : UnaryOp) (operand : Expr)
  | binary (op : BinaryOp) (left right : Expr)
  | conditional (condition : Expr) (consequence : List Stmt) (alternative : Option (List Stmt))
  | function (parameters : List String) (body : List Stmt)
  | call (callee : Expr) (arguments : List Expr)
  | index (left index : Expr)

inductive Stmt where
  | define (name : String) (value : Expr)
  | returning (value : Expr)
  | expr (value : Expr)

end

abbrev Block := List Stmt

structure Program where
  statements : Block

namespace UnaryOp

def sign : UnaryOp → String
  | .negate => "-"
  | .not => "!"

def all : List UnaryOp :=
  [.negate, .not]

def ofSign? (sign : String) : Option UnaryOp :=
  all.find? fun op => op.sign == sign

end UnaryOp

namespace BinaryOp

def sign : BinaryOp → String
  | .add => "+"
  | .subtract => "-"
  | .multiply => "*"
  | .divide => "/"
  | .less => "<"
  | .greater => ">"
  | .equal => "=="
  | .notEqual => "!="

def all : List BinaryOp :=
  [.add, .subtract, .multiply, .divide, .less, .greater, .equal, .notEqual]

def ofSign? (sign : String) : Option BinaryOp :=
  all.find? fun op => op.sign == sign

end BinaryOp

def Expr.isCallable : Expr → Bool
  | .name _ | .function _ _ | .call _ _ => true
  | _ => false

def Stmt.value : Stmt → Expr
  | .define _ value => value
  | .returning value => value
  | .expr value => value

def Stmt.isCallable : Stmt → Bool
  | .expr value => value.isCallable
  | _ => false

end Scriptlet
