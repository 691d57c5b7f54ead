/-!
# Numbers in decimal

The decimal text of an integer and the number that a run of digits stands for.
-/
set_option autoImplicit false

namespace Scriptlet.Text

def decimal : Int → String
  | .ofNat n => String.ofList (Nat.toDigits 10 n)
  | .negSucc n => String.ofList ('-' :: Nat.toDigits 10 (n + 1))

def digitsValue (digits : String) : Nat :=
  Nat.ofDigitChars 10 digits.toList 0

theorem digitsValue_decimal (n : Nat) : digitsValue (decimal n) = n := by
  simp [digitsValue, decimal, Nat.ofDigitChars_toDigits]

end Scriptlet.Text
