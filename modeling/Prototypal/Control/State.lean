import Prototypal.Control.Fault
import Prototypal.Graph.Ancestry
import Prototypal.Journal.Event
import Prototypal.Settings.Basic

/-!
# The state of a run

A run works on one `State`.  `Run α` is a computation that changes the state and ends with a
result or with an interrupt; an interrupt keeps all changes made before it.

The functions here are the only ones that touch the state directly:

* making objects and reading them;
* replacing the slots of an object;
* notes in the journal;
* the table of names, the settings, and the variables of a script.
-/

namespace Prototypal

/-- The value of an expression: an object, or a host value. -/
inductive Value where
  | object (o : ObjectId)
  | host (j : Json)

/-- The state of a run. -/
structure State where
  heap : Heap
  names : Names
  /-- The active boundaries, innermost first. -/
  boundaries : List Marker
  /-- How many markers have been given out. -/
  markers : Nat
  /-- How many calls are nested. -/
  callDepth : Nat
  /-- The settings, once they have been fixed. -/
  fixed : Option Settings
  /-- The strictness in force. -/
  strictness : Strictness
  /-- The variables of the script. -/
  bindings : List (String × Value)
  /-- What has been noted, newest first. -/
  journal : List Event
  /-- What has been emitted, newest first. -/
  emitted : List Json

namespace State

/-- The state that every script starts from. -/
def initial : State where
  heap := .initial
  names := .predefined
  boundaries := []
  markers := 0
  callDepth := 0
  fixed := none
  strictness := .off
  bindings := []
  journal := []
  emitted := []

/-- The settings in force. -/
def settings (s : State) : Settings :=
  s.fixed.getD .standard

/-- The limits in force. -/
def limits (s : State) : Limits :=
  s.settings.policy.limits

/-- How many hops an ancestor walk may take. -/
def hops (s : State) : Nat :=
  s.limits.chainDepth.toNat

end State

/-- A computation on the state of a run. -/
abbrev Run := EStateM Interrupt State

/-- Ends with a fault. -/
def fail (f : Fault) : Run α :=
  throw (.fault f)

/-- Notes an event in the journal. -/
def note (e : Event) : Run Unit :=
  modify fun s => { s with journal := e :: s.journal }

/-- The payload of an object. -/
def payloadOf (o : ObjectId) : Run Payload :=
  return (← get).heap.payload o

/-- The kind of an object's payload. -/
def kindOf (o : ObjectId) : Run Kind :=
  return (← payloadOf o).kind

/-- The slots of an object. -/
def slotsOf (o : ObjectId) : Run Slots :=
  return (← get).heap.slots o

/-- Replaces the slots of an object. -/
def setSlots (o : ObjectId) (slots : Slots) : Run Unit :=
  modify fun s => { s with heap := s.heap.setSlots o slots }

/-- Makes an object with the given payload and ancestors. -/
def makeWith (p : Payload) (parent : Option ObjectId) (stepparents : List ObjectId) :
    Run ObjectId :=
  modifyGet fun s => (s.heap.nextId, { s with heap := s.heap.make p parent stepparents })

/-- Makes an object with the given payload and no ancestors. -/
def make (p : Payload) : Run ObjectId :=
  makeWith p none []

/-- Makes a closure object around a new body. -/
def makeClosure (body : Body) : Run ObjectId :=
  modifyGet fun s =>
    (s.heap.nextId, { s with heap := s.heap.make (.closure ⟨s.heap.nextId, body, none⟩) none [] })

/-- Makes a shallow copy of an object. -/
def copy (o : ObjectId) : Run ObjectId :=
  modifyGet fun s => (s.heap.nextId, { s with heap := s.heap.copy o })

/-- Uses up an identity. -/
def skipId : Run ObjectId :=
  modifyGet fun s => (s.heap.nextId, { s with heap := s.heap.skip })

/-- Gives out the next marker. -/
def nextMarker : Run Marker :=
  modifyGet fun s => (⟨s.markers + 1⟩, { s with markers := s.markers + 1 })

/-- The symbol of a text.  A new text ends the run if the table of names is full. -/
def intern (text : String) : Run Symbol := do
  let s ← get
  match s.names.intern text with
  | some (y, names) =>
    set { s with names := names }
    return y
  | none => throw .overflow

/-- The key that an object stands for: a Text is taken as a name, any other object by identity. -/
def keyOf (o : ObjectId) : Run Key := do
  match ← payloadOf o with
  | .text t => return .name (← intern t)
  | _ => return .object o

/-- The object that stands for a key: a new Text for a name. -/
def keyObject (k : Key) : Run ObjectId := do
  match k with
  | .name y => make (.text ((← get).names.text y))
  | .object o => return o

/-- Fixes the settings.  This can be done once. -/
def fixSettings (settings : Settings) : Run Unit := do
  match (← get).fixed with
  | some _ => throw .reconfigured
  | none =>
    modify fun s => { s with fixed := some settings, strictness := settings.policy.strictness }

/-- Changes the strictness in force. -/
def setStrictness (l : Strictness) : Run Unit :=
  modify fun s => { s with strictness := l }

/-- Assigns a variable. -/
def assign (name : String) (v : Value) : Run Unit :=
  modify fun s => { s with bindings := (name, v) :: s.bindings.filter fun b => b.1 != name }

/-- The value of a variable; Null if it has none. -/
def valueOf (name : String) : Run Value :=
  return ((← get).bindings.lookup name).getD (.object nullId)

/-- Hands a value out of the script. -/
def emit (j : Json) : Run Unit :=
  modify fun s => { s with emitted := j :: s.emitted }

/-- Runs a computation and then, however it ended, a change of the state. -/
def ensure (act : Run α) (after : State → State) : Run α := fun s =>
  match act s with
  | .ok a s' => .ok a (after s')
  | .error i s' => .error i (after s')

end Prototypal
