import Prototypal.Control.State

/-!
# Reading and writing slots, and lookup along the ancestors

The operations here act on the slots of one object, or walk its ancestors; none of them is
checked.

**Entries.**  Reading an identity, the readonly keys or the stepparents makes a new object each
time, out of what the slots answer.

**Two kinds of write.**  `slotSet` and `slotDelete` fail on a readonly key.  `makeReadonly`,
`setParent` and `pushStepparent` ask only whether the slots are sealed, and ignore the write if
they are.

**Lookup.**  A reserved key is answered by the object itself and never inherited.  Every cut of a
walk is noted in the journal.
-/

namespace Prototypal

/-- The object for an entry, which is made if the entry was not stored. -/
def Entry.toObject : Entry → Run ObjectId
  | stored o => return o
  | identity o => make (.number (Float.ofNat o))
  | keys ks => do make (.list (← ks.mapM keyObject))
  | group os => make (.list os)

/-- The own value of a key, if it is present. -/
def slotGet (o : ObjectId) (k : Key) : Run (Option ObjectId) := do
  match (← slotsOf o).read? k with
  | some e => some <$> e.toObject
  | none => return none

/-- Fails if a key may not be written. -/
def ensureWritable (slots : Slots) (k : Key) : Run Unit :=
  if slots.isReadonly k then fail (.readonly k) else return ()

/-- Stores a value under a key. -/
def slotSet (o : ObjectId) (k : Key) (v : ObjectId) : Run Unit := do
  let slots ← slotsOf o
  ensureWritable slots k
  note (.written o k v)
  let p ← payloadOf v
  match slots.put k v p with
  | some slots' => setSlots o slots'
  | none => fail (.mismatch .stepparents [.list] p.kind)

/-- Removes a key and gives back its value, Null if it was absent. -/
def slotDelete (o : ObjectId) (k : Key) : Run ObjectId := do
  let slots ← slotsOf o
  ensureWritable slots k
  note (.removed o k)
  let (entry, slots') := slots.take k
  setSlots o slots'
  match entry with
  | some e => e.toObject
  | none => return nullId

/-- Carries a write out unless the slots are sealed. -/
def unlessSealed (o : ObjectId) (write : SilentWrite) (act : Slots → Run Unit) : Run Unit := do
  let slots ← slotsOf o
  if slots.isSealed then note (.ignored o write) else act slots

/-- Forbids further writes to a key. -/
def makeReadonly (o : ObjectId) (k : Key) : Run Unit :=
  unlessSealed o .makeReadonly fun slots => do
    note (.frozen o k)
    setSlots o (slots.protect k)

/-- Gives an object a parent, or none. -/
def setParent (o : ObjectId) (parent : Option ObjectId) : Run Unit :=
  unlessSealed o .setParent fun slots =>
    setSlots o { slots with parent := parent }

/-- Gives an object another stepparent, which is asked after the present ones. -/
def pushStepparent (o stepparent : ObjectId) : Run Unit :=
  unlessSealed o .pushStepparent fun slots =>
    setSlots o { slots with stepparents := slots.stepparents ++ [stepparent] }

/-- Notes the cuts of a walk, in the order in which they happened. -/
def noteCuts (k : Option Key) (t : Trail) : Run Unit := do
  let limit := (← get).hops
  t.cuts.reverse.forM fun o => note (.cut o k limit)

/-- Looks a key up along the ancestors. -/
def resolve (o : ObjectId) (k : Key) : Run (Option Found) := do
  if k.isReserved then
    return (← slotGet o k).map fun v => ⟨o, v⟩
  else
    let s ← get
    let (found, trail) := s.heap.resolve? s.hops o k
    noteCuts (some k) trail
    return found

/-- Looks a key up along the ancestors, without the own entry. -/
def resolveAbove (o : ObjectId) (k : Key) : Run (Option Found) := do
  if k.isReserved then
    return none
  else
    let s ← get
    let (found, trail) := s.heap.resolveAbove? s.hops o k
    noteCuts (some k) trail
    return found

/-- The value of a key along the ancestors. -/
def lookup (o : ObjectId) (k : Key) : Run (Option ObjectId) :=
  return (← resolve o k).map Found.value

/-- The value of a key along the ancestors, without the own entry. -/
def lookupAbove (o : ObjectId) (k : Key) : Run (Option ObjectId) :=
  return (← resolveAbove o k).map Found.value

/-- Whether one object is another or has it among its ancestors. -/
def isA (o target : ObjectId) : Run Bool := do
  let s ← get
  let (found, trail) := s.heap.isA s.hops o target
  noteCuts none trail
  return found

end Prototypal
