import ThreeAddress.Text.Unprintable

/-!
Text between double quotes, as log lines show it.
-/

set_option autoImplicit false

namespace ThreeAddress.Text

/-- A character as it stands between the quotes. The quote, the backslash and four controls have
short escapes; every other unprintable character is spelled by its code point in hexadecimal. -/
def escapeChar (c : Char) : String :=
  match c with
  | '"' => "\\\""
  | '\\' => "\\\\"
  | '\n' => "\\n"
  | '\r' => "\\r"
  | '\t' => "\\t"
  | '\x00' => "\\0"
  | _ =>
    if isUnprintable c then
      "\\u\x7b" ++ String.ofList (Nat.toDigits 16 c.toNat) ++ "\x7d"
    else
      c.toString

def quote (text : String) : String :=
  "\"" ++ String.join (text.toList.map escapeChar) ++ "\""

end ThreeAddress.Text
