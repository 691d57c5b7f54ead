import Scriptlet.Text.Blank
import Scriptlet.Token

/-!
# From text to tokens

`scan` splits the lexeme off the front of a text, `Lexer.next` skips the blanks before it and
keeps count of the bytes, and `tokens` lists all tokens of a text. The list ends with the only
token of kind `endOfInput`.
-/
set_option autoImplicit false

namespace Scriptlet

open Token

def isWordStart (c : Char) : Bool :=
  c.isAlpha || c == '_'

def isWordPart (c : Char) : Bool :=
  isWordStart c || c.isDigit

def byteLength : List Char → Nat
  | [] => 0
  | c :: chars => c.utf8Size + byteLength chars

def signKind (c : Char) : Kind :=
  match c with
  | '=' => .assign
  | '+' => .plus
  | '-' => .minus
  | '!' => .bang
  | '*' => .star
  | '/' => .slash
  | '>' => .greater
  | '<' => .less
  | ',' => .comma
  | ':' => .colon
  | ';' => .semicolon
  | '(' => .leftParen
  | ')' => .rightParen
  | '\x7b' => .leftBrace
  | '\x7d' => .rightBrace
  | '[' => .leftBracket
  | ']' => .rightBracket
  | _ => .illegal

structure Lexeme where
  kind : Kind
  chars : List Char
  rest : List Char
deriving DecidableEq, Repr

def Lexeme.literal (lexeme : Lexeme) : String :=
  String.ofList <|
    if lexeme.kind = .string then lexeme.chars.tail.dropLast else lexeme.chars

/-- The lexeme at the front of the text `c :: rest`, as long as it can be. A quote without a
partner makes the whole text one illegal lexeme. -/
def scan (c : Char) (rest : List Char) : Lexeme :=
  if isWordStart c then
    let word := c :: rest.takeWhile isWordPart
    ⟨.ofWord (String.ofList word), word, rest.dropWhile isWordPart⟩
  else if c.isDigit then
    ⟨.integer, c :: rest.takeWhile Char.isDigit, rest.dropWhile Char.isDigit⟩
  else if c = '"' then
    match rest.dropWhile (· ≠ '"') with
    | [] => ⟨.illegal, c :: rest, []⟩
    | quote :: after => ⟨.string, c :: (rest.takeWhile (· ≠ '"') ++ [quote]), after⟩
  else
    match c, rest with
    | '=', '=' :: after => ⟨.equal, ['=', '='], after⟩
    | '!', '=' :: after => ⟨.notEqual, ['!', '='], after⟩
    | c, rest => ⟨signKind c, [c], rest⟩

/-- A place in a text: the bytes before it, the characters after it, and whether the end has
been given out as a token. -/
structure Lexer where
  offset : Nat
  rest : List Char
  finished : Bool
deriving DecidableEq, Repr

namespace Lexer

def ofSource (source : String) : Lexer :=
  ⟨0, source.toList, false⟩

def next (lexer : Lexer) : Option (Token × Lexer) :=
  if lexer.finished then
    none
  else
    let start := lexer.offset + byteLength (lexer.rest.takeWhile Text.isBlank)
    match lexer.rest.dropWhile Text.isBlank with
    | [] => some (⟨.endOfInput, "", start, start⟩, ⟨start, [], true⟩)
    | c :: rest =>
      let lexeme := scan c rest
      let stop := start + byteLength lexeme.chars
      some (⟨lexeme.kind, lexeme.literal, start, stop⟩, ⟨stop, lexeme.rest, false⟩)

inductive Fault where
  | pastEnd
deriving DecidableEq, Repr

def Fault.message : Fault → String
  | .pastEnd => "token requested past end of input"

def nextToken (lexer : Lexer) : Except Fault (Token × Lexer) :=
  match lexer.next with
  | some step => .ok step
  | none => .error .pastEnd

def take : Nat → Lexer → List Token
  | 0, _ => []
  | count + 1, lexer =>
    match lexer.next with
    | none => []
    | some (token, lexer) => token :: lexer.take count

end Lexer

/-- All tokens of a text. Each takes up a character at least, save the one that ends the list. -/
def tokens (source : String) : List Token :=
  let lexer := Lexer.ofSource source
  lexer.take (lexer.rest.length + 1)

def tokenListing (source : String) : String :=
  "\n".intercalate ((tokens source).map Token.line)

end Scriptlet
