/-!
# Tokens

The words and signs of the language. A token records its kind, its literal text and the bytes of
the source that it covers.
-/
set_option autoImplicit false

namespace Scriptlet

inductive Token.Kind where
  | illegal
  | endOfInput
  | name
  | integer
  | string
  | assign
  | plus
  | minus
  | bang
  | star
  | slash
  | equal
  | notEqual
  | greater
  | less
  | comma
  | colon
  | semicolon
  | leftParen
  | rightParen
  | leftBrace
  | rightBrace
  | leftBracket
  | rightBracket
  | functionWord
  | letWord
  | trueWord
  | falseWord
  | ifWord
  | elseWord
  | returnWord
deriving DecidableEq, Repr

/-- A token covers the bytes from `start` up to, and without, `stop`. The literal of a string
leaves out the quotes that the token covers. -/
structure Token where
  kind : Token.Kind
  literal : String
  start : Nat
  stop : Nat
deriving DecidableEq, Repr

namespace Token

def Kind.text : Kind → String
  | .illegal => "ILLEGAL"
  | .endOfInput => "EOF"
  | .name => "IDENT"
  | .integer => "INT"
  | .string => "STRING"
  | .assign => "="
  | .plus => "+"
  | .minus => "-"
  | .bang => "!"
  | .star => "*"
  | .slash => "/"
  | .equal => "=="
  | .notEqual => "!="
  | .greater => ">"
  | .less => "<"
  | .comma => ","
  | .colon => ":"
  | .semicolon => ";"
  | .leftParen => "("
  | .rightParen => ")"
  | .leftBrace => "\x7b"
  | .rightBrace => "\x7d"
  | .leftBracket => "["
  | .rightBracket => "]"
  | .functionWord => "FUNCTION"
  | .letWord => "LET"
  | .trueWord => "TRUE"
  | .falseWord => "FALSE"
  | .ifWord => "IF"
  | .elseWord => "ELSE"
  | .returnWord => "RETURN"

def Kind.all : List Kind :=
  [.illegal, .endOfInput, .name, .integer, .string, .assign, .plus, .minus, .bang, .star, .slash,
    .equal, .notEqual, .greater, .less, .comma, .colon, .semicolon, .leftParen, .rightParen,
    .leftBrace, .rightBrace, .leftBracket, .rightBracket, .functionWord, .letWord, .trueWord,
    .falseWord, .ifWord, .elseWord, .returnWord]

def Kind.ofText? (text : String) : Option Kind :=
  all.find? fun kind => kind.text == text

def keywords : List (String × Kind) :=
  [("fn", .functionWord), ("let", .letWord), ("true", .trueWord), ("false", .falseWord),
    ("if", .ifWord), ("else", .elseWord), ("return", .returnWord)]

def Kind.ofWord (word : String) : Kind :=
  (keywords.lookup word).getD .name

def line (token : Token) : String :=
  if token.literal.isEmpty then token.kind.text else token.kind.text ++ " " ++ token.literal

end Token

end Scriptlet
