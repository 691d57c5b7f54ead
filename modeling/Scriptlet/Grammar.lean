import Scriptlet.Diagnostic
import Scriptlet.Program

/-!
# What tokens mean in expressions

A token either begins an expression or extends the operand before it. `Kind.leading?` and
`Kind.trailing?` are the rules of the language.
-/
set_option autoImplicit false

namespace Scriptlet

open Token (Kind)

inductive Precedence where
  | lowest
  | equality
  | order
  | sum
  | product
  | unary
  | call
  | index
deriving DecidableEq, Repr

def Precedence.rank : Precedence → Nat
  | .lowest => 0
  | .equality => 1
  | .order => 2
  | .sum => 3
  | .product => 4
  | .unary => 5
  | .call => 6
  | .index => 7

def Token.Kind.precedence : Kind → Precedence
  | .equal | .notEqual => .equality
  | .less | .greater => .order
  | .plus | .minus => .sum
  | .star | .slash => .product
  | .leftParen => .call
  | .leftBracket => .index
  | _ => .lowest

inductive Leading where
  | name
  | integer
  | string
  | boolean (value : Bool)
  | unary (op : UnaryOp)
  | group
  | array
  | hash
  | conditional
  | function
deriving DecidableEq, Repr

def Token.Kind.leading? : Kind → Option Leading
  | .name => some .name
  | .integer => some .integer
  | .string => some .string
  | .trueWord => some (.boolean true)
  | .falseWord => some (.boolean false)
  | .bang => some (.unary .not)
  | .minus => some (.unary .negate)
  | .leftParen => some .group
  | .leftBracket => some .array
  | .leftBrace => some .hash
  | .ifWord => some .conditional
  | .functionWord => some .function
  | _ => none

inductive Trailing where
  | binary (op : BinaryOp)
  | call
  | index
deriving DecidableEq, Repr

def Token.Kind.trailing? : Kind → Option Trailing
  | .plus => some (.binary .add)
  | .minus => some (.binary .subtract)
  | .star => some (.binary .multiply)
  | .slash => some (.binary .divide)
  | .less => some (.binary .less)
  | .greater => some (.binary .greater)
  | .equal => some (.binary .equal)
  | .notEqual => some (.binary .notEqual)
  | .leftParen => some .call
  | .leftBracket => some .index
  | _ => none

end Scriptlet
