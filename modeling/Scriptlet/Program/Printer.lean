import Scriptlet.Program
import Scriptlet.Text.Decimal

/-!
# The canonical text of a program

Every operation stands in parentheses, so that the text shows how the tree is nested. Statements
follow each other without a break; a block has a blank inside each brace.
-/
set_option autoImplicit false

namespace Scriptlet

def booleanText (value : Bool) : String :=
  if value then "true" else "false"

def separated (texts : List String) : String :=
  ", ".intercalate texts

def braced (statements : List String) : String :=
  "\x7b " ++ String.join statements ++ (if statements.isEmpty then "" else " ") ++ "\x7d"

mutual

def Expr.text : Expr → String
  | .name name => name
  | .integer value => Text.decimal value.toInt
  | .string text => "\"" ++ text ++ "\""
  | .boolean value => booleanText value
  | .array items => "[" ++ separated (exprTexts items) ++ "]"
  | .hash pairs => "\x7b" ++ separated (pairTexts pairs) ++ "\x7d"
  | .unary op operand => "(" ++ op.sign ++ operand.text ++ ")"
  | .binary op left right => "(" ++ left.text ++ " " ++ op.sign ++ " " ++ right.text ++ ")"
  | .conditional condition consequence none =>
    "if " ++ condition.text ++ " " ++ braced (stmtTexts consequence)
  | .conditional condition consequence (some alternative) =>
    "if " ++ condition.text ++ " " ++ braced (stmtTexts consequence) ++
      " else " ++ braced (stmtTexts alternative)
  | .function parameters body =>
    "fn(" ++ separated parameters ++ ") " ++ braced (stmtTexts body)
  | .call callee arguments => callee.text ++ "(" ++ separated (exprTexts arguments) ++ ")"
  | .index left index => "(" ++ left.text ++ "[" ++ index.text ++ "])"

def Stmt.text : Stmt → String
  | .define name value => "let " ++ name ++ " = " ++ value.text ++ ";"
  | .returning value => "return " ++ value.text ++ ";"
  | .expr value => value.text

def exprTexts : List Expr → List String
  | [] => []
  | item :: items => item.text :: exprTexts items

def pairTexts : List (Expr × Expr) → List String
  | [] => []
  | (key, value) :: pairs => (key.text ++ ": " ++ value.text) :: pairTexts pairs

def stmtTexts : List Stmt → List String
  | [] => []
  | stmt :: stmts => stmt.text :: stmtTexts stmts

end

theorem exprTexts_eq_map (items : List Expr) : exprTexts items = items.map Expr.text := by
  induction items with
  | nil => rfl
  | cons item items ih => simp [exprTexts, ih]

theorem pairTexts_eq_map (pairs : List (Expr × Expr)) :
    pairTexts pairs = pairs.map fun pair => pair.1.text ++ ": " ++ pair.2.text := by
  induction pairs with
  | nil => rfl
  | cons pair pairs ih => simp [pairTexts, ih]

theorem stmtTexts_eq_map (stmts : List Stmt) : stmtTexts stmts = stmts.map Stmt.text := by
  induction stmts with
  | nil => rfl
  | cons stmt stmts ih => simp [stmtTexts, ih]

def Block.text (block : Block) : String :=
  braced (stmtTexts block)

def Program.text (program : Program) : String :=
  String.join (stmtTexts program.statements)

end Scriptlet
