import Scriptlet.Reader.Statement
import Scriptlet.Text.Decimal

/-!
# Reading expressions

Operator precedence decides how far an expression goes: after its first operand it takes in every
operator that binds more tightly than the place where the expression stands. `expression` ties
the readers together; its bound counts how deeply expressions are nested.
-/
set_option autoImplicit false

namespace Scriptlet.Reader

open Token (Kind)

def itemsRest {α : Type} (item : Reader α) : Nat → Reader (List α)
  | 0 => Run.halt .exhausted
  | rounds + 1 => do
    if ← peekIs .comma then
      advance
      advance
      let next ← item
      let rest ← itemsRest item rounds
      return next :: rest
    else
      return []

/-- Items between the opening token, which is current, and the closing one. -/
def items {α : Type} (close : Kind) (item : Reader α) (rounds : Nat) : Reader (List α) := do
  if ← peekIs close then
    advance
    return []
  else
    advance
    let first ← item
    let rest ← itemsRest item rounds
    expect close
    return first :: rest

def integerBound : Nat :=
  9223372036854775808

def integerOf (token : Token) : Except Diagnostic Int64 :=
  let value := Text.digitsValue token.literal
  if value < integerBound then
    .ok (Int64.ofNat value)
  else
    .error (.badInteger token.literal token.start)

def parameter : Reader String := do
  let token ← current
  if token.kind = .name then
    return token.literal
  else
    Run.raise (.unexpectedToken .name token)

def pair (expr : Precedence → Reader Expr) : Reader (Expr × Expr) := do
  let key ← expr .lowest
  expect .colon
  advance
  let value ← expr .lowest
  return (key, value)

def leadingForm (expr : Precedence → Reader Expr) (rounds : Nat) (token : Token) :
    Leading → Reader Expr
  | .name => return .name token.literal
  | .integer => do
    let value ← Run.ofExcept (integerOf token)
    return .integer value
  | .string => return .string token.literal
  | .boolean value => return .boolean value
  | .unary op => do
    advance
    let operand ← expr .unary
    return .unary op operand
  | .group => do
    advance
    let inner ← expr .lowest
    expect .rightParen
    return inner
  | .array => do
    let elements ← items .rightBracket (expr .lowest) rounds
    return .array elements
  | .hash => do
    let pairs ← items .rightBrace (pair expr) rounds
    return .hash pairs
  | .conditional => do
    advance
    let condition ← expr .lowest
    expect .leftBrace
    let consequence ← block expr rounds
    if ← peekIs .elseWord then
      advance
      expect .leftBrace
      let alternative ← block expr rounds
      return .conditional condition consequence (some alternative)
    else
      return .conditional condition consequence none
  | .function => do
    expect .leftParen
    let parameters ← items .rightParen parameter rounds
    expect .leftBrace
    let body ← block expr rounds
    return .function parameters body

def operand (handlers : Handlers) (expr : Precedence → Reader Expr) (rounds : Nat) :
    Reader Expr := do
  let token ← current
  match handlers.leading? token.kind, token.kind.leading? with
  | some handler, _ => handler.run (block expr rounds)
  | none, some form => leadingForm expr rounds token form
  | none, none => Run.raise (.notLeading token)

def trailingForm (expr : Precedence → Reader Expr) (rounds : Nat) (left : Expr) (token : Token) :
    Trailing → Reader Expr
  | .binary op => do
    advance
    let right ← expr token.kind.precedence
    return .binary op left right
  | .call => do
    let arguments ← items .rightParen (expr .lowest) rounds
    return .call left arguments
  | .index => do
    advance
    let index ← expr .lowest
    expect .rightBracket
    return .index left index

/-- The rule for `next` after the operand `left`: none if no rule is known for it, or if it is a
parenthesis and the operand cannot be called. -/
def trailingRule (handlers : Handlers) (left : Expr) (next : Kind) :
    Option (TrailingHandler ⊕ Trailing) :=
  if next = .leftParen && !left.isCallable then
    none
  else
    match handlers.trailing? next with
    | some handler => some (.inl handler)
    | none => next.trailing?.map .inr

def extend (expr : Precedence → Reader Expr) (rounds : Nat) (left : Expr) (token : Token) :
    TrailingHandler ⊕ Trailing → Reader Expr
  | .inl handler => (handler left).run (block expr rounds)
  | .inr form => trailingForm expr rounds left token form

def operators (handlers : Handlers) (expr : Precedence → Reader Expr) (bound : Nat)
    (minimum : Precedence) : Nat → Expr → Reader Expr
  | 0, _ => Run.halt .exhausted
  | rounds + 1, left => do
    let next ← peek
    if minimum.rank < next.kind.precedence.rank then
      match trailingRule handlers left next.kind with
      | none => return left
      | some rule =>
        advance
        let extended ← extend expr bound left next rule
        operators handlers expr bound minimum rounds extended
    else
      return left

/-- The expression at the current token, with all operators that bind more tightly than
`minimum`. -/
def expression (handlers : Handlers) : Nat → Precedence → Reader Expr
  | 0, _ => Run.halt .exhausted
  | depth + 1, minimum => do
    let first ← operand handlers (expression handlers depth) (depth + 1)
    operators handlers (expression handlers depth) (depth + 1) minimum (depth + 1) first

def program (handlers : Handlers) (bound : Nat) : Reader Program := do
  let statements ← programRest (statement (expression handlers bound)) bound
  return ⟨statements⟩

end Scriptlet.Reader
