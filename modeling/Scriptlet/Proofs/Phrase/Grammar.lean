import Scriptlet.Proofs.Token.Ended
import Scriptlet.Reading

/-!
# The grammar of the language

The phrases of the language, each with the tree it stands for, as a relation between the tokens
from the phrase on and the tokens behind it. Every rule looks at the next token alone. A
repetition goes on as long as its next token continues it, and it ends only at a token that does
not, so that a token which could continue a phrase always does.

The tiers of operators are those of the language, from `==` to the signs before an operand. An
operand is an atom with its indices and arguments; only names, functions and calls are called.
-/
set_option autoImplicit false

namespace Scriptlet

open Token (Kind)

/-- The tiers of expressions, each made of operands from the tier after it. -/
inductive Tier where
  | equality
  | order
  | sum
  | product
  | unary
deriving DecidableEq, Repr

def Tier.operator? : Tier → Kind → Option BinaryOp
  | .equality, .equal => some .equal
  | .equality, .notEqual => some .notEqual
  | .order, .less => some .less
  | .order, .greater => some .greater
  | .sum, .plus => some .add
  | .sum, .minus => some .subtract
  | .product, .star => some .multiply
  | .product, .slash => some .divide
  | _, _ => none

def Tier.tighter : Tier → Tier
  | .equality => .order
  | .order => .sum
  | .sum => .product
  | .product => .unary
  | .unary => .unary

def unaryOperator? : Kind → Option UnaryOp
  | .bang => some .not
  | .minus => some .negate
  | _ => none

inductive Item where
  | parameter
  | element
  | pair

@[reducible]
def Item.Tree : Item → Type
  | .parameter => String
  | .element => Expr
  | .pair => Expr × Expr

/-- The phrases of the grammar. The rest of a tier, of an operand or of a list is what may follow
the part of it that was read before. Items are followed by the token that closes them. -/
inductive Phrase where
  | statements (close : Kind)
  | statement
  | block
  | tier (tier : Tier)
  | tierRest (tier : Tier) (left : Expr)
  | operand
  | operandRest (left : Expr)
  | atom
  | item (what : Item)
  | items (what : Item) (close : Kind)
  | itemsRest (what : Item) (close : Kind)

namespace Phrase

abbrev expr : Phrase :=
  .tier .equality

@[reducible]
def Tree : Phrase → Type
  | .statements _ => List Stmt
  | .statement => Stmt
  | .block => List Stmt
  | .tier _ => Expr
  | .tierRest _ _ => Expr
  | .operand => Expr
  | .operandRest _ => Expr
  | .atom => Expr
  | .item what => what.Tree
  | .items what _ => List what.Tree
  | .itemsRest what _ => List what.Tree

inductive Semicolon : List Token → List Token → Prop
  | found {token : Token} {rest : List Token} (semicolon : token.kind = .semicolon) :
      Semicolon (token :: rest) rest
  | none {token : Token} {rest : List Token} (other : token.kind ≠ .semicolon) :
      Semicolon (token :: rest) (token :: rest)

/-- Whatever stands between the value of a definition or of a `return` and the semicolon, the
closing brace or the end behind it belongs to the statement, and so does the semicolon. -/
inductive Ending : List Token → List Token → Prop
  | semicolon {token : Token} {rest : List Token} (semicolon : token.kind = .semicolon) :
      Ending (token :: rest) rest
  | brace {token : Token} {rest : List Token} (brace : token.kind = .rightBrace) :
      Ending (token :: rest) (token :: rest)
  | endOfInput {token : Token} {rest : List Token} (atEnd : token.kind = .endOfInput) :
      Ending (token :: rest) (token :: rest)
  | junk {token : Token} {list rest : List Token} (noSemicolon : token.kind ≠ .semicolon)
      (noBrace : token.kind ≠ .rightBrace) (inside : token.kind ≠ .endOfInput)
      (ending : Ending list rest) : Ending (token :: list) rest

/-- `Derives phrase list tree rest`: the tokens of `list` up to `rest` are a phrase with the given
tree. -/
inductive Derives : (phrase : Phrase) → List Token → phrase.Tree → List Token → Prop
  | statementsEnd {close : Kind} {token : Token} {rest : List Token}
      (closes : token.kind = close) :
      Derives (.statements close) (token :: rest) [] (token :: rest)
  | statementsMore {close : Kind} {token : Token} {list middle rest : List Token}
      {first : Stmt} {others : List Stmt} (goesOn : token.kind ≠ close)
      (statement : Derives .statement (token :: list) first middle)
      (more : Derives (.statements close) middle others rest) :
      Derives (.statements close) (token :: list) (first :: others) rest
  | define {word name sign : Token} {list middle rest : List Token} {value : Expr}
      (isLet : word.kind = .letWord) (isName : name.kind = .name) (isSign : sign.kind = .assign)
      (derivation : Derives .expr list value middle) (ending : Ending middle rest) :
      Derives .statement (word :: name :: sign :: list) (.define name.literal value) rest
  | returning {word : Token} {list middle rest : List Token} {value : Expr}
      (isReturn : word.kind = .returnWord) (derivation : Derives .expr list value middle)
      (ending : Ending middle rest) :
      Derives .statement (word :: list) (.returning value) rest
  | exprStatement {list middle rest : List Token} {value : Expr}
      (derivation : Derives .expr list value middle) (semicolon : Semicolon middle rest) :
      Derives .statement list (.expr value) rest
  | block {opening closing : Token} {list rest : List Token} {body : List Stmt}
      (opens : opening.kind = .leftBrace)
      (statements : Derives (.statements .rightBrace) list body (closing :: rest))
      (closes : closing.kind = .rightBrace) :
      Derives .block (opening :: list) body rest
  | tier {tier : Tier} {list middle rest : List Token} {first whole : Expr}
      (binary : tier ≠ .unary) (operand : Derives (.tier tier.tighter) list first middle)
      (more : Derives (.tierRest tier first) middle whole rest) :
      Derives (.tier tier) list whole rest
  | tierEnd {tier : Tier} {left : Expr} {token : Token} {rest : List Token}
      (noMore : tier.operator? token.kind = none) :
      Derives (.tierRest tier left) (token :: rest) left (token :: rest)
  | tierMore {tier : Tier} {op : BinaryOp} {left right whole : Expr} {token : Token}
      {list middle rest : List Token} (goesOn : tier.operator? token.kind = some op)
      (operand : Derives (.tier tier.tighter) list right middle)
      (more : Derives (.tierRest tier (.binary op left right)) middle whole rest) :
      Derives (.tierRest tier left) (token :: list) whole rest
  | unary {op : UnaryOp} {operand : Expr} {token : Token} {list rest : List Token}
      (sign : unaryOperator? token.kind = some op)
      (derivation : Derives (.tier .unary) list operand rest) :
      Derives (.tier .unary) (token :: list) (.unary op operand) rest
  | single {whole : Expr} {list rest : List Token}
      (derivation : Derives .operand list whole rest) :
      Derives (.tier .unary) list whole rest
  | operand {first whole : Expr} {list middle rest : List Token}
      (atom : Derives .atom list first middle)
      (more : Derives (.operandRest first) middle whole rest) :
      Derives .operand list whole rest
  | operandEnd {left : Expr} {token : Token} {rest : List Token}
      (noIndex : token.kind ≠ .leftBracket)
      (noCall : token.kind = .leftParen → left.isCallable = false) :
      Derives (.operandRest left) (token :: rest) left (token :: rest)
  | index {left index whole : Expr} {opening closing : Token} {list middle rest : List Token}
      (opens : opening.kind = .leftBracket)
      (derivation : Derives .expr list index (closing :: middle))
      (closes : closing.kind = .rightBracket)
      (more : Derives (.operandRest (.index left index)) middle whole rest) :
      Derives (.operandRest left) (opening :: list) whole rest
  | call {left whole : Expr} {arguments : List Expr} {opening : Token}
      {list middle rest : List Token} (opens : opening.kind = .leftParen)
      (callable : left.isCallable = true)
      (items : Derives (.items .element .rightParen) list arguments middle)
      (more : Derives (.operandRest (.call left arguments)) middle whole rest) :
      Derives (.operandRest left) (opening :: list) whole rest
  | name {token : Token} {rest : List Token} (isName : token.kind = .name) :
      Derives .atom (token :: rest) (.name token.literal) rest
  | integer {token : Token} {rest : List Token} (isInteger : token.kind = .integer)
      (small : Text.digitsValue token.literal < 9223372036854775808) :
      Derives .atom (token :: rest)
        (.integer (Int64.ofNat (Text.digitsValue token.literal))) rest
  | string {token : Token} {rest : List Token} (isString : token.kind = .string) :
      Derives .atom (token :: rest) (.string token.literal) rest
  | trueWord {token : Token} {rest : List Token} (isTrue : token.kind = .trueWord) :
      Derives .atom (token :: rest) (.boolean true) rest
  | falseWord {token : Token} {rest : List Token} (isFalse : token.kind = .falseWord) :
      Derives .atom (token :: rest) (.boolean false) rest
  | group {inner : Expr} {opening closing : Token} {list rest : List Token}
      (opens : opening.kind = .leftParen)
      (derivation : Derives .expr list inner (closing :: rest))
      (closes : closing.kind = .rightParen) :
      Derives .atom (opening :: list) inner rest
  | array {elements : List Expr} {opening : Token} {list rest : List Token}
      (opens : opening.kind = .leftBracket)
      (items : Derives (.items .element .rightBracket) list elements rest) :
      Derives .atom (opening :: list) (.array elements) rest
  | hash {pairs : List (Expr × Expr)} {opening : Token} {list rest : List Token}
      (opens : opening.kind = .leftBrace)
      (items : Derives (.items .pair .rightBrace) list pairs rest) :
      Derives .atom (opening :: list) (.hash pairs) rest
  | conditional {condition : Expr} {consequence : List Stmt} {word next : Token}
      {list middle rest : List Token} (isIf : word.kind = .ifWord)
      (derivation : Derives .expr list condition middle)
      (block : Derives .block middle consequence (next :: rest))
      (noElse : next.kind ≠ .elseWord) :
      Derives .atom (word :: list) (.conditional condition consequence none) (next :: rest)
  | alternative {condition : Expr} {consequence other : List Stmt} {word next : Token}
      {list middle after rest : List Token} (isIf : word.kind = .ifWord)
      (derivation : Derives .expr list condition middle)
      (block : Derives .block middle consequence (next :: after))
      (isElse : next.kind = .elseWord) (otherBlock : Derives .block after other rest) :
      Derives .atom (word :: list) (.conditional condition consequence (some other)) rest
  | function {parameters : List String} {body : List Stmt} {word opening : Token}
      {list middle rest : List Token} (isFunction : word.kind = .functionWord)
      (opens : opening.kind = .leftParen)
      (items : Derives (.items .parameter .rightParen) list parameters middle)
      (block : Derives .block middle body rest) :
      Derives .atom (word :: opening :: list) (.function parameters body) rest
  | parameter {token : Token} {rest : List Token} (isName : token.kind = .name) :
      Derives (.item .parameter) (token :: rest) token.literal rest
  | element {element : Expr} {list rest : List Token}
      (derivation : Derives .expr list element rest) :
      Derives (.item .element) list element rest
  | pair {key value : Expr} {colon : Token} {list middle rest : List Token}
      (keyDerivation : Derives .expr list key (colon :: middle)) (isColon : colon.kind = .colon)
      (valueDerivation : Derives .expr middle value rest) :
      Derives (.item .pair) list (key, value) rest
  | itemsNone {what : Item} {close : Kind} {token : Token} {rest : List Token}
      (closes : token.kind = close) :
      Derives (.items what close) (token :: rest) [] rest
  | itemsSome {what : Item} {close : Kind} {first : what.Tree} {others : List what.Tree}
      {token : Token} {list middle rest : List Token} (goesOn : token.kind ≠ close)
      (derivation : Derives (.item what) (token :: list) first middle)
      (more : Derives (.itemsRest what close) middle others rest) :
      Derives (.items what close) (token :: list) (first :: others) rest
  | itemsEnd {what : Item} {close : Kind} {token : Token} {rest : List Token}
      (closes : token.kind = close) (noComma : token.kind ≠ .comma) :
      Derives (.itemsRest what close) (token :: rest) [] rest
  | itemsMore {what : Item} {close : Kind} {next : what.Tree} {others : List what.Tree}
      {comma : Token} {list middle rest : List Token} (goesOn : comma.kind = .comma)
      (derivation : Derives (.item what) list next middle)
      (more : Derives (.itemsRest what close) middle others rest) :
      Derives (.itemsRest what close) (comma :: list) (next :: others) rest

end Phrase

def Program.Derived (program : Program) (list : List Token) : Prop :=
  ∃ ending : Token, Phrase.Derives (.statements .endOfInput) list program.statements [ending]

end Scriptlet
