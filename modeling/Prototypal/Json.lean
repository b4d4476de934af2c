/-!
# JSON values

Host values, answers and journal records are JSON values.  Numbers are whole, of any size, and
the fields of a record keep their order.  `Json.compact` writes a value without blanks.
-/

namespace Prototypal

/-- A JSON value. -/
inductive Json where
  | null
  | bool (b : Bool)
  | int (n : Int)
  | text (s : String)
  | array (items : List Json)
  | record (fields : List (String × Json))
deriving Inhabited

namespace Json

/-- A natural number. -/
def nat (n : Nat) : Json :=
  .int n

/-- A value, or null in its absence. -/
def ofOption (f : α → Json) : Option α → Json
  | some a => f a
  | none => .null

/-- The four hexadecimal digits of a control character. -/
def fourDigits (n : Nat) : String :=
  let digits := Nat.toDigits 16 n
  String.ofList (List.replicate (4 - digits.length) '0' ++ digits)

/-- How a character stands inside a JSON text. -/
def escapeChar (c : Char) : String :=
  match c with
  | '"' => "\\\""
  | '\\' => "\\\\"
  | '\x08' => "\\b"
  | '\x0c' => "\\f"
  | '\n' => "\\n"
  | '\r' => "\\r"
  | '\t' => "\\t"
  | c => if c.toNat < 0x20 then "\\u" ++ fourDigits c.toNat else c.toString

/-- A text in quotes. -/
def quote (s : String) : String :=
  "\"" ++ String.join (s.toList.map escapeChar) ++ "\""

mutual

/-- A value written without blanks. -/
def compact : Json → String
  | null => "null"
  | bool b => if b then "true" else "false"
  | int n => toString n
  | text s => quote s
  | array items => "[" ++ ",".intercalate (compactItems items) ++ "]"
  | record fields => "\x7b" ++ ",".intercalate (compactFields fields) ++ "\x7d"

/-- The items of an array, each written without blanks. -/
def compactItems : List Json → List String
  | [] => []
  | j :: js => compact j :: compactItems js

/-- The fields of a record, each written without blanks. -/
def compactFields : List (String × Json) → List String
  | [] => []
  | (name, j) :: fields => (quote name ++ ":" ++ compact j) :: compactFields fields

end

end Json

end Prototypal
