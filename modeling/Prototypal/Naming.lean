/-!
# Names and the symbols that stand for them

Attribute names are interned: a text is entered into a table once, and from then on the position
of its entry, a `Symbol`, stands for it.  Comparing two symbols compares positions.

**The table.**  `Names` has two parts.  The texts stand in the order in which they were first seen,
and `Names.text` reads them; a map leads from a text to its symbol, and `Names.find?` asks it.
Neither part is ever looked at in place of the other, so `Names.enter`, which writes both, is what
keeps them in step.

**The limit.**  A position is a 32-bit number.  A new text does not fit into a table of
`Names.capacity` texts; a text that has been seen is answered there as well.

**The fixed part.**  Every table starts from `Names.predefined`.  Its first four names are
reserved: they are answered by the slots of an object and never inherited.
-/

namespace Prototypal

/-- A symbol is the position of its text in the table of names. -/
structure Symbol where
  index : Nat
deriving DecidableEq, Repr

namespace Symbol

/-- `__id__`, the identity of an object. -/
def identity : Symbol := ⟨0⟩

/-- `__readonly__`, the keys that may no longer be written. -/
def readonly : Symbol := ⟨1⟩

/-- `__parent__`, the ancestor asked last. -/
def parent : Symbol := ⟨2⟩

/-- `__stepparents__`, the ancestors asked before the parent. -/
def stepparents : Symbol := ⟨3⟩

/-- `()`, asked of a value that is called without being a closure. -/
def call : Symbol := ⟨4⟩

/-- `@bool`, the coercion to a Boolean. -/
def asBool : Symbol := ⟨5⟩

/-- `@num`, the coercion to a Number. -/
def asNum : Symbol := ⟨6⟩

/-- `@text`, the coercion to a Text. -/
def asText : Symbol := ⟨7⟩

/-- `@list`, the coercion to a List. -/
def asList : Symbol := ⟨8⟩

/-- `@map`, the coercion to a Map. -/
def asMap : Symbol := ⟨9⟩

/-- `bind`, which fixes the receiver of a closure. -/
def bind : Symbol := ⟨10⟩

/-- `birth`, which makes a child of the receiver. -/
def birth : Symbol := ⟨11⟩

/-- `is_a`, membership in the ancestor graph. -/
def isA : Symbol := ⟨12⟩

/-- `super`, the value that an own attribute hides. -/
def super : Symbol := ⟨13⟩

/-- `clone`, a shallow copy. -/
def clone : Symbol := ⟨14⟩

/-- `===`, identity. -/
def identical : Symbol := ⟨15⟩

/-- `!==`, the negation of `===`. -/
def notIdentical : Symbol := ⟨16⟩

/-- `==`, equality, which starts out as identity. -/
def equal : Symbol := ⟨17⟩

/-- `!=`, the negation of `==`. -/
def notEqual : Symbol := ⟨18⟩

/-- `!`, the negation of `@bool`. -/
def not : Symbol := ⟨19⟩

/-- `@hash`, a number that identifies the receiver. -/
def hash : Symbol := ⟨20⟩

/-- `respond_to`, whether an attribute resolves. -/
def respondTo : Symbol := ⟨21⟩

/-- `try`, which runs a body inside a boundary. -/
def attempt : Symbol := ⟨22⟩

/-- `return`, which leaves enclosing boundaries. -/
def leave : Symbol := ⟨23⟩

/-- `init`, another spelling of `birth`. -/
def init : Symbol := ⟨24⟩

/-- The reserved symbols are the first four of the table. -/
def isReserved (s : Symbol) : Bool :=
  s.index ≤ 3

/-- Two symbols are ordered by their positions. -/
def order (a b : Symbol) : Ordering :=
  compare a.index b.index

end Symbol

/-- The table of names seen so far. -/
structure Names where
  /-- The texts, in the order of their first appearance. -/
  texts : Array String
  /-- The symbols of the texts, newest first. -/
  symbols : List (String × Symbol)
deriving Repr

namespace Names

/-- The table without names. -/
def empty : Names where
  texts := #[]
  symbols := []

/-- How many texts a table can hold: the largest 32-bit number. -/
def capacity : Nat := 4294967295

/-- Enters a text, at the next position. -/
def enter (names : Names) (text : String) : Symbol × Names :=
  let y : Symbol := ⟨names.texts.size⟩
  (y, { texts := names.texts.push text, symbols := (text, y) :: names.symbols })

/-- Enters a text, unless the table is full. -/
def insert (names : Names) (text : String) : Option (Symbol × Names) :=
  if names.texts.size < capacity then some (names.enter text) else none

/-- The symbol of a text that has been seen. -/
def find? (names : Names) (text : String) : Option Symbol :=
  names.symbols.lookup text

/-- The symbol of a text, entered into the table if it is new.  There is none for a new text if the
table is full. -/
def intern (names : Names) (text : String) : Option (Symbol × Names) :=
  match names.find? text with
  | some y => some (y, names)
  | none => names.insert text

/-- The text of a symbol; empty for a position that has not been given out. -/
def text (names : Names) (s : Symbol) : String :=
  names.texts.getD s.index ""

/-- The names that every table starts with, each at the position its symbol stands for. -/
def fixed : List String := [
  "__id__", "__readonly__", "__parent__", "__stepparents__", "()",
  "@bool", "@num", "@text", "@list", "@map",
  "bind", "birth", "is_a", "super", "clone",
  "===", "!==", "==", "!=", "!",
  "@hash", "respond_to", "try", "return", "init"]

/-- The table that every run starts from. -/
def predefined : Names :=
  fixed.foldl (fun names text => (names.enter text).2) empty

end Names

end Prototypal
