/-!
# Blanks

The characters that count as white space around a word, and their removal.
-/

namespace Prototypal.Text

/-- The white space characters, by code point. -/
def isBlank (c : Char) : Bool :=
  let n := c.toNat
  (9 ≤ n && n ≤ 13) || n == 0x20 || n == 0x85 || n == 0xa0 || n == 0x1680 ||
  (0x2000 ≤ n && n ≤ 0x200a) || n == 0x2028 || n == 0x2029 || n == 0x202f ||
  n == 0x205f || n == 0x3000

/-- A text without the blanks at either end. -/
def trim (s : String) : String :=
  String.ofList (((s.toList.dropWhile isBlank).reverse.dropWhile isBlank).reverse)

/-- A text with the letters of the basic alphabet in lower case. -/
def lower (s : String) : String :=
  s.map Char.toLower

end Prototypal.Text
