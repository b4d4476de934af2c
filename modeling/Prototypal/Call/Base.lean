import Prototypal.Call.Send
import Prototypal.Control.Boundary

/-!
# The base attributes

The attributes that a prototype at the root of a graph starts with: construction, identity and
equality, truth, text and hash, questions about attributes, and boundaries.

`install` puts them on an object as closures; `BaseAttribute.run` is what such a closure does.
The negations call the attribute that they negate, so overriding equality also changes
inequality.
-/

namespace Prototypal

namespace BaseAttribute

/-- The base attributes in the order in which they are put on an object. -/
def all : List BaseAttribute :=
  [birth, init, isA, super, clone, identical, notIdentical, equal, notEqual, not, asBool, asText,
    hash, respondTo, attempt, leave]

/-- The name under which a base attribute is found. -/
def symbol : BaseAttribute → Symbol
  | birth => .birth
  | init => .init
  | isA => .isA
  | super => .super
  | clone => .clone
  | identical => .identical
  | notIdentical => .notIdentical
  | equal => .equal
  | notEqual => .notEqual
  | not => .not
  | asBool => .asBool
  | asText => .asText
  | hash => .hash
  | respondTo => .respondTo
  | attempt => .attempt
  | leave => .leave

end BaseAttribute

/-- A new Boolean. -/
def answer (b : Bool) : Run ObjectId :=
  make (.boolean b)

/-- Makes a child of the receiver, with the first argument as initializer unless it is Null. -/
def birthFrom (enter : Enter) (i : Invocation) (asked : Symbol) : Run ObjectId := do
  match ← payloadOf (i.arg 0) with
  | .null => giveBirth enter i.this none
  | .closure c => giveBirth enter i.this (some c)
  | p => fail (.mismatch asked [.closure] p.kind)

/-- Calls an attribute of the receiver with the same arguments and negates the answer. -/
def negate (enter : Enter) (i : Invocation) (y : Symbol) : Run ObjectId := do
  let o ← send enter i.this (.name y) i.args
  answer (!(← truthy enter o))

/-- Leaves boundaries: one if the first argument is Null, as many as it says if it is a Number,
all up to its own if it is a marker object. -/
def leaveFrom (i : Invocation) : Run ObjectId := do
  match ← payloadOf (i.arg 0) with
  | .null => returnLevels 1 (i.arg 1)
  | .number n => returnLevels ((Numeral.ofFloat n).clamp (UInt64.size - 1)) (i.arg 1)
  | .marker _ => returnTo (i.arg 0) (i.arg 1)
  | p => fail (.mismatch .leave [.number, .marker] p.kind)

/-- What a base attribute does. -/
def BaseAttribute.run (enter : Enter) (i : Invocation) : BaseAttribute → Run ObjectId
  | birth => birthFrom enter i .birth
  | init => birthFrom enter i .init
  | isA => do answer (← Prototypal.isA i.this (i.arg 0))
  | super => do attributeAbove i.this (← keyOf (i.arg 0))
  | clone => copy i.this
  | identical => answer (i.this == i.arg 0)
  | notIdentical => negate enter i .identical
  | equal => send enter i.this (.name .identical) i.args
  | notEqual => negate enter i .equal
  | not => do answer ((← coerce enter i.this .bool).boolean? != some true)
  | asBool => answer true
  | asText => make (.text ("<object #" ++ toString i.this ++ ">"))
  | hash => make (.number (Float.ofNat i.this))
  | respondTo => do answer (← respondsTo i.this (← keyOf (i.arg 0)))
  | attempt => Prototypal.attempt fun token => send enter (i.arg 0) (.name .call) [token]
  | leave => leaveFrom i

/-- Puts the base attributes on an object. -/
def install (o : ObjectId) : Run Unit := do
  note (.installing o)
  BaseAttribute.all.forM fun a => do
    setAttribute o (.name a.symbol) (← makeClosure (.base a))

/-- Makes a root that carries the base attributes. -/
def makePristine : Run ObjectId := do
  let o ← make .plain
  install o
  return o

end Prototypal
