/-!
Decimal numerals of unsigned 32-bit words.
-/

set_option autoImplicit false

namespace ThreeAddress.Text

/-- The number of values of a 32-bit word. -/
def wordLimit : Nat := 4294967296

/-- The value of a digit string, most significant digit first. -/
def digitsValue (digits : List Char) : Nat :=
  digits.foldl (fun value digit => value * 10 + (digit.toNat - '0'.toNat)) 0

/-- Reads a numeral: at least one decimal digit after at most one plus sign, and a value that fits
in a word. -/
def readWord (text : String) : Option Nat :=
  let digits := match text.toList with
    | '+' :: rest => rest
    | rest => rest
  if digits.isEmpty || !digits.all Char.isDigit then
    none
  else if digitsValue digits < wordLimit then
    some (digitsValue digits)
  else
    none

end ThreeAddress.Text
