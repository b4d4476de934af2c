import Prototypal.Naming

/-!
# Kinds of payload and the coercions between them

Every object carries one native payload.  A `Kind` names the payload's shape in messages.  A
`Coercion` is a conversion that an object may offer as an attribute: it fixes the attribute to be
called and the kind of payload that the answer must carry.
-/

namespace Prototypal

/-- The shapes of payload. -/
inductive Kind where
  | plain
  | null
  | boolean
  | number
  | text
  | list
  | map
  | closure
  | marker
deriving DecidableEq, Repr

/-- The name of a kind, as messages show it. -/
def Kind.name : Kind → String
  | plain => "Object"
  | null => "Null"
  | boolean => "Boolean"
  | number => "Number"
  | text => "Text"
  | list => "List"
  | map => "Map"
  | closure => "Closure"
  | marker => "Marker"

/-- The conversions that an object may offer. -/
inductive Coercion where
  | bool
  | num
  | text
  | list
  | map
deriving DecidableEq, Repr

namespace Coercion

/-- All conversions. -/
def all : List Coercion :=
  [bool, num, text, list, map]

/-- The attribute that is called to convert. -/
def symbol : Coercion → Symbol
  | bool => .asBool
  | num => .asNum
  | text => .asText
  | list => .asList
  | map => .asMap

/-- The kind of payload that the answer must carry. -/
def expected : Coercion → Kind
  | bool => .boolean
  | num => .number
  | text => .text
  | list => .list
  | map => .map

/-- The conversion that an attribute stands for, if it stands for one. -/
def ofSymbol? (s : Symbol) : Option Coercion :=
  all.find? fun c => c.symbol == s

/-- The name under which a conversion is listed. -/
def title : Coercion → String
  | bool => "Bool"
  | num => "Num"
  | text => "Text"
  | list => "List"
  | map => "Map"

/-- The label of the native value that a conversion yields. -/
def label : Coercion → String
  | bool => "bool"
  | num => "num"
  | text => "text"
  | list => "list"
  | map => "map"

end Coercion

end Prototypal
