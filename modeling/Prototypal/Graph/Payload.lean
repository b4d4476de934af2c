import Prototypal.Script.Expr

/-!
# Identities, keys and payloads

An object is known by its identity.  A `Key` selects an attribute, by a symbol or by the identity
of an object.  A `Payload` is the native content of an object: it is fixed when the object is
made and never changes.
-/

namespace Prototypal

/-- The identity of an object: its position in the heap. -/
abbrev ObjectId := Nat

/-- The token of one boundary. -/
structure Marker where
  number : Nat
deriving DecidableEq, Repr

/-- A marker as messages show it. -/
def Marker.text (m : Marker) : String :=
  "#" ++ toString m.number

/-- An attribute key. -/
inductive Key where
  | name (s : Symbol)
  | object (o : ObjectId)
deriving DecidableEq, Repr

namespace Key

/-- The key of the identity. -/
def identity : Key := .name .identity

/-- The key of the readonly keys. -/
def readonly : Key := .name .readonly

/-- The key of the parent. -/
def parent : Key := .name .parent

/-- The key of the stepparents. -/
def stepparents : Key := .name .stepparents

/-- The symbol of a key that is a name. -/
def symbol? : Key → Option Symbol
  | name s => some s
  | object _ => none

/-- Reserved keys are never inherited. -/
def isReserved : Key → Bool
  | name s => s.isReserved
  | object _ => false

/-- A key as messages show it. -/
def text (names : Names) : Key → String
  | name s => names.text s
  | object o => "#" ++ toString o

end Key

/-- The attributes that a prototype at the root of a graph starts with. -/
inductive BaseAttribute where
  | birth
  | init
  | isA
  | super
  | clone
  | identical
  | notIdentical
  | equal
  | notEqual
  | not
  | asBool
  | asText
  | hash
  | respondTo
  | attempt
  | leave
deriving DecidableEq, Repr

/-- What a closure runs: a script, or one of the base attributes. -/
inductive Body where
  | script (es : List Expr)
  | base (a : BaseAttribute)

/-- A closure is a body with or without a receiver.  `origin` is the object that first carried
the body, so closures that share a body are those of one origin. -/
structure Closure where
  origin : ObjectId
  body : Body
  owner : Option ObjectId

namespace Closure

/-- The same body with a receiver. -/
def bind (c : Closure) (owner : ObjectId) : Closure :=
  { c with owner := some owner }

/-- Whether the closure has a receiver. -/
def isBound (c : Closure) : Bool :=
  c.owner.isSome

/-- Whether two closures run the same body. -/
def sharesBody (c d : Closure) : Bool :=
  c.origin == d.origin

end Closure

/-- The native content of an object. -/
inductive Payload where
  | plain
  | null
  | boolean (b : Bool)
  | number (n : Float)
  | text (s : String)
  | list (items : List ObjectId)
  | map (entries : List (ObjectId × ObjectId))
  | closure (c : Closure)
  | marker (m : Marker)

namespace Payload

/-- The shape of a payload. -/
def kind : Payload → Kind
  | plain => .plain
  | null => .null
  | boolean _ => .boolean
  | number _ => .number
  | text _ => .text
  | list _ => .list
  | map _ => .map
  | closure _ => .closure
  | marker _ => .marker

/-- Whether the payload is that of the Null object or of a copy of it. -/
def isNull (p : Payload) : Bool :=
  p.kind == .null

/-- The closure, if the payload is one. -/
def closure? : Payload → Option Closure
  | closure c => some c
  | _ => none

/-- The marker, if the payload is one. -/
def marker? : Payload → Option Marker
  | marker m => some m
  | _ => none

/-- The items, if the payload is a list. -/
def list? : Payload → Option (List ObjectId)
  | list items => some items
  | _ => none

/-- The truth value, if the payload is one. -/
def boolean? : Payload → Option Bool
  | boolean b => some b
  | _ => none

/-- The number, if the payload is one. -/
def number? : Payload → Option Float
  | number n => some n
  | _ => none

end Payload

/-- Whether a payload is what a coercion must answer with. -/
def Coercion.accepts (c : Coercion) (p : Payload) : Bool :=
  p.kind == c.expected

end Prototypal
