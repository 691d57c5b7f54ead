import Scriptlet.Text.Printable

/-!
# Quoted text

Text between double quotes in which every character can be seen: the quote and the backslash
carry a backslash, four control characters have a letter, and any other character that is not
printable is written as its code point in hexadecimal.
-/
set_option autoImplicit false

namespace Scriptlet.Text

def hexadecimal (c : Char) : List Char :=
  Nat.toDigits 16 c.toNat

def escape (c : Char) : List Char :=
  match c with
  | '"' => ['\\', '"']
  | '\\' => ['\\', '\\']
  | '\t' => ['\\', 't']
  | '\n' => ['\\', 'n']
  | '\r' => ['\\', 'r']
  | '\x00' => ['\\', '0']
  | c => if isPrintable c then [c] else "\\u\x7b".toList ++ hexadecimal c ++ ['\x7d']

def quoted (text : String) : String :=
  String.ofList ('"' :: text.toList.flatMap escape ++ ['"'])

end Scriptlet.Text
