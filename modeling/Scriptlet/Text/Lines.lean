/-!
# Lines of a stream

A stream of bytes is cut into lines before it is known to be text.
-/
set_option autoImplicit false

namespace Scriptlet.Text

def lineFeed : UInt8 := 10

def carriageReturn : UInt8 := 13

def dropReturn : List UInt8 → List UInt8
  | [] => []
  | byte :: line => if byte = carriageReturn then line else byte :: line

def linesAfter (line : List UInt8) : List UInt8 → List (List UInt8)
  | [] => if line.isEmpty then [] else [line.reverse]
  | byte :: rest =>
    if byte = lineFeed then
      (dropReturn line).reverse :: linesAfter [] rest
    else
      linesAfter (byte :: line) rest

/-- The lines of a stream. A line feed ends a line and goes with one carriage return before it;
the last line may do without. -/
def lines (bytes : List UInt8) : List (List UInt8) :=
  linesAfter [] bytes

def decode? (bytes : List UInt8) : Option String :=
  String.fromUTF8? ⟨bytes.toArray⟩

end Scriptlet.Text
