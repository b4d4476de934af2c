import Prototypal.Access.Attribute

/-!
# Calling attributes

An attribute is called by resolving it along the ancestors.  A closure is bound to the receiver
and run.  Any other value has its own `()` attribute called.  An attribute that does not resolve
yields Null, apart from two that every closure answers.

Running a body, and going on to the `()` of a value, are *activations*.  They count against the
limit on nested calls, and they are where one call leads to the next.  All functions here take
the means of carrying an activation out as a parameter `enter`, which is supplied once the
meaning of bodies is known.
-/

namespace Prototypal

/-- A step into a nested call. -/
inductive Activation where
  /-- Runs the body of a closure, on behalf of the object that held it, if there is one. -/
  | body (c : Closure) (holder : Option ObjectId) (args : List ObjectId)
  /-- Calls a value that is no closure. -/
  | value (v : ObjectId) (args : List ObjectId)

/-- The means of carrying an activation out. -/
abbrev Enter := Activation → Run ObjectId

/-- What a running body sees. -/
structure Invocation where
  receiver : Option ObjectId
  holder : Option ObjectId
  args : List ObjectId

namespace Invocation

/-- Outside of any body there is no receiver, and there are no arguments. -/
def outside : Invocation := ⟨none, none, []⟩

/-- The receiver, Null if there is none. -/
def this (i : Invocation) : ObjectId :=
  i.receiver.getD nullId

/-- The argument at a position, Null if it is missing. -/
def arg (i : Invocation) (n : Nat) : ObjectId :=
  i.args.getD n nullId

end Invocation

/-- Calls a value that was found on the holder. -/
def invoke (enter : Enter) (this holder value : ObjectId) (args : List ObjectId) :
    Run ObjectId := do
  match (← payloadOf value).closure? with
  | some c => enter (.body (c.bind this) (some holder) args)
  | none => enter (.value value args)

/-- Notes that a called attribute did not resolve, and yields Null. -/
def leaveUnanswered (o : ObjectId) (k : Key) : Run ObjectId := do
  note (.unanswered o k)
  return nullId

/-- Calls an attribute that did not resolve.  Every closure can be run, and can be bound. -/
def callUnresolved (enter : Enter) (o : ObjectId) (k : Key) (args : List ObjectId) :
    Run ObjectId := do
  match (← payloadOf o).closure?, k with
  | some c, .name y =>
    if y = .call then enter (.body c none args)
    else if y = .bind then make (.closure (c.bind (args.headD nullId)))
    else leaveUnanswered o k
  | _, _ => leaveUnanswered o k

/-- Calls an attribute of an object, unchecked. -/
def dispatch (enter : Enter) (o : ObjectId) (k : Key) (args : List ObjectId) : Run ObjectId := do
  match ← resolve o k with
  | some f => invoke enter o f.holder f.value args
  | none => callUnresolved enter o k args

/-- Calls an attribute of an object. -/
def send (enter : Enter) (o : ObjectId) (k : Key) (args : List ObjectId) : Run ObjectId :=
  checked o (.call k) some (dispatch enter o k args)

/-- Calls the attribute found above `start`, with `this` as receiver. -/
def sendAbove (enter : Enter) (this start : ObjectId) (k : Key) (args : List ObjectId) :
    Run ObjectId := do
  match ← resolveAbove start k with
  | some f =>
    note (.superCalled this k f.holder)
    invoke enter this f.holder f.value args
  | none =>
    note (.superUnanswered this k)
    return nullId

/-- Calls, from a running body, the attribute above the one that is running. -/
def sendSuper (enter : Enter) (i : Invocation) (k : Key) (args : List ObjectId) : Run ObjectId :=
  sendAbove enter i.this (i.holder.getD i.this) k args

/-- Calls the attribute of a coercion and checks the payload of the answer. -/
def coerce (enter : Enter) (o : ObjectId) (c : Coercion) : Run Payload := do
  let p ← payloadOf (← send enter o (.name c.symbol) [])
  if c.accepts p then return p else fail (.mismatch c.symbol [c.expected] p.kind)

/-- Whether an object counts as true: a Boolean by its value, any other by its coercion. -/
def truthy (enter : Enter) (o : ObjectId) : Run Bool := do
  match (← payloadOf o).boolean? with
  | some b => return b
  | none => return (← coerce enter o .bool).boolean? == some true

/-- Makes an object and runs its initializer, if there is one, with the object as receiver. -/
def construct (enter : Enter) (p : Payload) (parent : Option ObjectId) (stepparents : List ObjectId)
    (initializer : Option Closure) : Run ObjectId := do
  let o ← makeWith p parent stepparents
  match initializer with
  | some c =>
    let _ ← enter (.body (c.bind o) none [])
    return o
  | none => return o

/-- Makes a child of an object. -/
def giveBirth (enter : Enter) (o : ObjectId) (initializer : Option Closure) : Run ObjectId :=
  construct enter .plain (some o) [] initializer

end Prototypal
