import Prototypal.Graph.Payload

/-!
# Slots: the attributes that an object holds itself

The slots of an object are a table from ordinary keys to objects, the keys that may no longer be
written, and the references to the ancestors.  The four reserved keys are not in the table: each
is answered from the part of the slots that it names.

**Reading.**  `Slots.read?` answers a key with an `Entry`.  An ordinary key and the parent are
answered with the object stored there.  The other reserved keys are answered with what an object
is then made of, since slots do not make objects.

**Writing.**  `Slots.put` and `Slots.take` carry a write out; whether it is allowed is asked of
`Slots.isReadonly` before.  Sealed slots, those of the Null object and its copies, allow none.
-/

namespace Prototypal

/-- The attributes that an object holds itself. -/
structure Slots where
  /-- The object that the slots belong to. -/
  owner : ObjectId
  /-- The ordinary attributes. -/
  table : List (Key × ObjectId)
  /-- The keys that may no longer be written. -/
  readonlyKeys : List Key
  /-- The ancestor that is asked last. -/
  parent : Option ObjectId
  /-- The ancestors that are asked first, in order. -/
  stepparents : List ObjectId
  /-- Sealed slots allow no write at all. -/
  isSealed : Bool

/-- What a key is answered with. -/
inductive Entry where
  /-- An object that was stored. -/
  | stored (o : ObjectId)
  /-- The identity of the owner, to be made into a Number. -/
  | identity (o : ObjectId)
  /-- The readonly keys, to be made into a List. -/
  | keys (ks : List Key)
  /-- The stepparents, to be made into a List. -/
  | group (os : List ObjectId)

namespace Slots

/-- The slots of a new object.  Its identity and its readonly keys are readonly from the start. -/
def fresh (owner : ObjectId) (parent : Option ObjectId) (stepparents : List ObjectId) : Slots where
  owner := owner
  table := []
  readonlyKeys := [Key.readonly, Key.identity]
  parent := parent
  stepparents := stepparents
  isSealed := false

/-- Slots that allow no write, without ancestors. -/
def sealed (owner : ObjectId) : Slots :=
  { fresh owner none [] with isSealed := true }

/-- The ancestors in the order in which they are asked. -/
def ancestors (s : Slots) : List ObjectId :=
  s.stepparents ++ s.parent.toList

/-- Whether a key may not be written. -/
def isReadonly (s : Slots) (k : Key) : Bool :=
  s.isSealed || s.readonlyKeys.contains k

/-- The object stored under an ordinary key. -/
def find? (s : Slots) (k : Key) : Option ObjectId :=
  s.table.lookup k

/-- What a key is answered with, if it is present. -/
def read? (s : Slots) (k : Key) : Option Entry :=
  if k = Key.identity then some (.identity s.owner)
  else if k = Key.readonly then some (.keys s.readonlyKeys)
  else if k = Key.parent then s.parent.map .stored
  else if k = Key.stepparents then
    if s.stepparents.isEmpty then none else some (.group s.stepparents)
  else (s.find? k).map .stored

/-- Whether a key is present. -/
def has (s : Slots) (k : Key) : Bool :=
  if k = Key.identity ∨ k = Key.readonly then true
  else if k = Key.parent then s.parent.isSome
  else if k = Key.stepparents then !s.stepparents.isEmpty
  else (s.find? k).isSome

/-- The table without a key. -/
def without (s : Slots) (k : Key) : List (Key × ObjectId) :=
  s.table.filter fun e => e.1 != k

/-- Stores an object, whose payload is given, under a key.  A parent with the Null payload
detaches.  Stepparents are copied from the items of a list; for any other payload there is no
result. -/
def put (s : Slots) (k : Key) (value : ObjectId) (payload : Payload) : Option Slots :=
  if k = Key.parent then
    some { s with parent := if payload.isNull then none else some value }
  else if k = Key.stepparents then
    payload.list?.map fun items => { s with stepparents := items }
  else
    some { s with table := (k, value) :: s.without k }

/-- Removes a key and gives what it was answered with. -/
def take (s : Slots) (k : Key) : Option Entry × Slots :=
  if k = Key.parent then
    (s.parent.map .stored, { s with parent := none })
  else if k = Key.stepparents then
    (if s.stepparents.isEmpty then none else some (.group s.stepparents),
      { s with stepparents := [] })
  else
    ((s.find? k).map .stored, { s with table := s.without k })

/-- Forbids further writes to a key. -/
def protect (s : Slots) (k : Key) : Slots :=
  if s.readonlyKeys.contains k then s else { s with readonlyKeys := k :: s.readonlyKeys }

/-- The same contents for another owner. -/
def duplicate (s : Slots) (owner : ObjectId) : Slots :=
  { s with owner := owner }

end Slots

end Prototypal
