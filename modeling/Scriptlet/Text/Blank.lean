import Scriptlet.Text.Ranges

/-!
# Blank characters

The Unicode property `White_Space`: what separates tokens, and what a line may consist of and
still count as empty.
-/
set_option autoImplicit false

namespace Scriptlet.Text

def blankRanges : Ranges :=
  [(0x9, 0xd), (0x20, 0x20), (0x85, 0x85), (0xa0, 0xa0), (0x1680, 0x1680), (0x2000, 0x200a),
    (0x2028, 0x2029), (0x202f, 0x202f), (0x205f, 0x205f), (0x3000, 0x3000)]

def isBlank (c : Char) : Bool :=
  blankRanges.has c

example : (blankRanges.map fun range => range.2 + 1 - range.1).sum = 25 := by decide

end Scriptlet.Text
