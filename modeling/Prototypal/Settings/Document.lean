/-!
# Documents

Settings are read from a JSON document.  A document is first cut into tokens and then built into
a tree, both in one pass from left to right.

**Tokens.**  `Token.scan` goes through the characters.  Words (everything that is neither a
blank, nor punctuation, nor a text) are classified when they are complete: the three literal
names, and numbers by the grammar of the format.

**Trees.**  `Document.build` goes through the tokens with a stack of the arrays and objects that
are still open.

A tree keeps what a reader of settings can tell apart: of numbers only those written as a row of
digits have a value, and a text with a lone surrogate has no content.  Fields keep their order
and may repeat.
-/

namespace Prototypal

/-- The smallest parts of a document. -/
inductive Token where
  | openArray
  | closeArray
  | openObject
  | closeObject
  | comma
  | colon
  | null
  | bool (b : Bool)
  /-- A number, with its value if it is written as a row of digits. -/
  | number (value : Option Nat)
  /-- A text, with its content unless a surrogate stands alone in it. -/
  | text (content : Option String)
deriving DecidableEq, Repr

/-- A part of a text: a character, or a code unit given by an escape. -/
inductive Piece where
  | char (c : Char)
  | unit (n : Nat)

/-- The characters that pieces stand for.  Two units that form a surrogate pair are one
character; any other surrogate has no meaning. -/
def Piece.assemble : List Piece → Option (List Char)
  | [] => some []
  | .char c :: ps => (assemble ps).map (c :: ·)
  | .unit n :: ps =>
    if 0xD800 ≤ n ∧ n < 0xDC00 then
      match ps with
      | .unit m :: ps' =>
        if 0xDC00 ≤ m ∧ m < 0xE000 then
          (assemble ps').map (Char.ofNat (0x10000 + (n - 0xD800) * 0x400 + (m - 0xDC00)) :: ·)
        else none
      | _ => none
    else if 0xDC00 ≤ n ∧ n < 0xE000 then none
    else (assemble ps).map (Char.ofNat n :: ·)

namespace Token

/-- The blanks that may stand between tokens. -/
def isSpace (c : Char) : Bool :=
  c == ' ' || c == '\n' || c == '\t' || c == '\r'

/-- The token of a punctuation character. -/
def punctuation? : Char → Option Token
  | '[' => some openArray
  | ']' => some closeArray
  | '\x7b' => some openObject
  | '\x7d' => some closeObject
  | ',' => some comma
  | ':' => some colon
  | _ => none

/-- The value of a row of digits. -/
def digitsValue (cs : List Char) : Nat :=
  cs.foldl (fun n c => n * 10 + (c.toNat - '0'.toNat)) 0

/-- Whether characters form the exponent of a number, or nothing. -/
def isExponent : List Char → Bool
  | [] => true
  | e :: cs =>
    (e == 'e' || e == 'E') &&
      let digits := match cs with
        | '+' :: ds => ds
        | '-' :: ds => ds
        | ds => ds
      !digits.isEmpty && digits.all Char.isDigit

/-- Whether characters form the fraction and the exponent of a number, or nothing. -/
def isTail : List Char → Bool
  | '.' :: cs => !(cs.takeWhile Char.isDigit).isEmpty && isExponent (cs.dropWhile Char.isDigit)
  | cs => isExponent cs

/-- The number that characters without a sign form: a row of digits that does not start with a
superfluous zero, and what may follow it. -/
def unsigned? (cs : List Char) : Option (Option Nat) :=
  let digits := cs.takeWhile Char.isDigit
  let tail := cs.dropWhile Char.isDigit
  if digits.isEmpty || (digits.head? == some '0' && 1 < digits.length) || !isTail tail then none
  else some (if tail.isEmpty then some (digitsValue digits) else none)

/-- The token of a complete word. -/
def ofWord? (cs : List Char) : Option Token :=
  if cs = "null".toList then some null
  else if cs = "true".toList then some (bool true)
  else if cs = "false".toList then some (bool false)
  else
    match cs with
    | '-' :: ds => (unsigned? ds).map fun _ => number none
    | ds => (unsigned? ds).map number

/-- The character of a short escape. -/
def shortEscape? : Char → Option Char
  | '"' => some '"'
  | '\\' => some '\\'
  | '/' => some '/'
  | 'b' => some '\x08'
  | 'f' => some '\x0c'
  | 'n' => some '\n'
  | 'r' => some '\r'
  | 't' => some '\t'
  | _ => none

/-- The value of a hexadecimal digit. -/
def hexDigit? (c : Char) : Option Nat :=
  if c.isDigit then some (c.toNat - '0'.toNat)
  else if 'a' ≤ c ∧ c ≤ 'f' then some (c.toNat - 'a'.toNat + 10)
  else if 'A' ≤ c ∧ c ≤ 'F' then some (c.toNat - 'A'.toNat + 10)
  else none

/-- Where in a document a scan stands. -/
inductive Place where
  /-- Between tokens. -/
  | between
  /-- In a word, of which the characters so far are given in reverse. -/
  | word (seen : List Char)
  /-- In a text, of which the pieces so far are given in reverse. -/
  | text (seen : List Piece)
  /-- Behind a backslash in a text. -/
  | escape (seen : List Piece)
  /-- In an escape by code unit, with the digits still to come and the value so far. -/
  | unit (seen : List Piece) (missing : Nat) (value : Nat)

/-- Cuts a document into tokens, from a place on.  The tokens so far are given in reverse. -/
def scanFrom : Place → List Token → List Char → Option (List Token)
  | .between, done, [] => some done.reverse
  | .word seen, done, [] => do return (← ofWord? seen.reverse) :: done |>.reverse
  | .text _, _, [] => none
  | .escape _, _, [] => none
  | .unit .., _, [] => none
  | .between, done, c :: cs =>
    if isSpace c then scanFrom .between done cs
    else if c = '"' then scanFrom (.text []) done cs
    else
      match punctuation? c with
      | some t => scanFrom .between (t :: done) cs
      | none => scanFrom (.word [c]) done cs
  | .word seen, done, c :: cs =>
    if isSpace c then do scanFrom .between ((← ofWord? seen.reverse) :: done) cs
    else if c = '"' then do scanFrom (.text []) ((← ofWord? seen.reverse) :: done) cs
    else
      match punctuation? c with
      | some t => do scanFrom .between (t :: (← ofWord? seen.reverse) :: done) cs
      | none => scanFrom (.word (c :: seen)) done cs
  | .text seen, done, c :: cs =>
    if c = '"' then
      scanFrom .between (text ((Piece.assemble seen.reverse).map String.ofList) :: done) cs
    else if c = '\\' then scanFrom (.escape seen) done cs
    else if c.toNat < 0x20 then none
    else scanFrom (.text (.char c :: seen)) done cs
  | .escape seen, done, c :: cs =>
    if c = 'u' then scanFrom (.unit seen 3 0) done cs
    else do scanFrom (.text (.char (← shortEscape? c) :: seen)) done cs
  | .unit seen missing value, done, c :: cs => do
    let value := value * 16 + (← hexDigit? c)
    match missing with
    | 0 => scanFrom (.text (.unit value :: seen)) done cs
    | n + 1 => scanFrom (.unit seen n value) done cs

/-- Cuts a document into tokens. -/
def scan (s : String) : Option (List Token) :=
  scanFrom .between [] s.toList

end Token

/-- A document as a tree. -/
inductive Document where
  | null
  | bool (b : Bool)
  | number (value : Option Nat)
  | text (content : Option String)
  | array (items : List Document)
  | object (fields : List (Option String × Document))

namespace Document

/-- An array or object that is still open, with its contents so far in reverse. -/
inductive Frame where
  | array (items : List Document)
  | object (fields : List (Option String × Document)) (key : Option String)

/-- What may come next. -/
inductive Expecting where
  | value
  | valueOrClose
  | key
  | keyOrClose
  | colon
  | separator
  /-- Nothing: the document is complete. -/
  | nothing (d : Document)

/-- How far a document has been built. -/
structure Builder where
  expecting : Expecting
  frames : List Frame

namespace Builder

/-- Nothing has been built yet. -/
def start : Builder := ⟨.value, []⟩

/-- Adds a complete value to the innermost open frame. -/
def complete (d : Document) : List Frame → Builder
  | [] => ⟨.nothing d, []⟩
  | .array items :: fs => ⟨.separator, .array (d :: items) :: fs⟩
  | .object fields key :: fs => ⟨.separator, .object ((key, d) :: fields) key :: fs⟩

/-- Takes a token where a value may stand. -/
def value (frames : List Frame) : Token → Option Builder
  | .null => some (complete .null frames)
  | .bool b => some (complete (.bool b) frames)
  | .number n => some (complete (.number n) frames)
  | .text s => some (complete (.text s) frames)
  | .openArray => some ⟨.valueOrClose, .array [] :: frames⟩
  | .openObject => some ⟨.keyOrClose, .object [] none :: frames⟩
  | _ => none

/-- Takes a token where a key must stand. -/
def key : List Frame → Token → Option Builder
  | .object fields _ :: fs, .text s => some ⟨.colon, .object fields s :: fs⟩
  | _, _ => none

/-- Takes a token where an array or object may be closed. -/
def close : List Frame → Token → Option Builder
  | .array items :: fs, .closeArray => some (complete (.array items.reverse) fs)
  | .object fields _ :: fs, .closeObject => some (complete (.object fields.reverse) fs)
  | _, _ => none

/-- Takes the next token. -/
def step (b : Builder) (t : Token) : Option Builder :=
  match b.expecting with
  | .value => value b.frames t
  | .valueOrClose => (close b.frames t).or (value b.frames t)
  | .key => key b.frames t
  | .keyOrClose => (close b.frames t).or (key b.frames t)
  | .colon => if t = .colon then some { b with expecting := .value } else none
  | .separator =>
    if t = .comma then
      match b.frames with
      | .array _ :: _ => some { b with expecting := .value }
      | .object .. :: _ => some { b with expecting := .key }
      | [] => none
    else close b.frames t
  | .nothing _ => none

end Builder

/-- Builds the tree of a row of tokens. -/
def build (ts : List Token) : Option Document := do
  let b ← ts.foldlM Builder.step .start
  match b.expecting with
  | .nothing d => some d
  | _ => none

/-- Reads a document. -/
def parse (s : String) : Option Document := do
  build (← Token.scan s)

/-- The parts of a document that describes a record: an object with some of the named fields,
each at most once, or an array with the first of them in order.  Fields of other names are
skipped. -/
def parts? (names : List String) : Document → Option (List (Option Document))
  | object fields =>
    if fields.all fun f => f.1.isSome then
      names.mapM fun name =>
        match fields.filter fun f => f.1 == some name with
        | [] => some none
        | [f] => some (some f.2)
        | _ => none
    else none
  | array items =>
    if items.length ≤ names.length then
      some (items.map some ++ List.replicate (names.length - items.length) none)
    else none
  | _ => none

end Document

end Prototypal
