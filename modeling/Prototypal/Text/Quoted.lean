import Prototypal.Text.Hidden

/-!
# Quoted text

The notation for texts in diagnosis: the text stands between double quotes, a quote and a
backslash are escaped, the usual controls have short escapes, and every other hidden character is
written as its code point in hexadecimal.
-/

namespace Prototypal.Text

/-- A number in hexadecimal, without leading zeros. -/
def hex (n : Nat) : String :=
  String.ofList (Nat.toDigits 16 n)

/-- How a character stands inside a quoted text. -/
def quoteChar (c : Char) : String :=
  match c with
  | '"' => "\\\""
  | '\\' => "\\\\"
  | '\n' => "\\n"
  | '\r' => "\\r"
  | '\t' => "\\t"
  | '\x00' => "\\0"
  | c => if isHidden c then "\\u\x7b" ++ hex c.toNat ++ "\x7d" else c.toString

/-- A text in quotes. -/
def quote (s : String) : String :=
  "\"" ++ String.join (s.toList.map quoteChar) ++ "\""

end Prototypal.Text
