import Prototypal.Graph.Slots

/-!
# The heap

The heap holds every object ever made.  An object's identity is its position, so the next
identity is the size of the heap, and identities are never given out twice.  An identity that was
used up without making an object leaves an empty position.

The Null object stands at position one in every heap, because `Heap.initial` puts it there and
nothing is ever removed.

**The view.**  `Heap.get?` is how a heap is looked at.  The lemmas at the end say what each
operation does to it: `add` adds one object and keeps the older ones, `setSlots` changes the slots
of one object and no payload.
-/

namespace Prototypal

/-- An object: a payload that never changes, and slots. -/
structure Object where
  payload : Payload
  slots : Slots

/-- All objects, by identity. -/
structure Heap where
  objects : Array (Option Object)

/-- The identity of the Null object. -/
def nullId : ObjectId := 1

namespace Heap

/-- The heap that holds the Null object alone. -/
def initial : Heap where
  objects := #[none, some ⟨.null, .sealed nullId⟩]

/-- The identity that the next object gets. -/
def nextId (h : Heap) : ObjectId :=
  h.objects.size

/-- The object of an identity. -/
def get? (h : Heap) (o : ObjectId) : Option Object :=
  h.objects.getD o none

/-- The payload of an object. -/
def payload (h : Heap) (o : ObjectId) : Payload :=
  match h.get? o with
  | some x => x.payload
  | none => .plain

/-- The slots of an object. -/
def slots (h : Heap) (o : ObjectId) : Slots :=
  match h.get? o with
  | some x => x.slots
  | none => .fresh o none []

/-- The ancestors of an object in the order in which they are asked. -/
def ancestors (h : Heap) (o : ObjectId) : List ObjectId :=
  (h.slots o).ancestors

/-- Adds an object at the next identity. -/
def add (h : Heap) (x : Object) : Heap :=
  ⟨h.objects.push (some x)⟩

/-- Adds a new object with the given payload and ancestors. -/
def make (h : Heap) (p : Payload) (parent : Option ObjectId) (stepparents : List ObjectId) : Heap :=
  h.add ⟨p, .fresh h.nextId parent stepparents⟩

/-- Adds a copy of an object: the same payload, and slots with the same contents. -/
def copy (h : Heap) (o : ObjectId) : Heap :=
  h.add ⟨h.payload o, (h.slots o).duplicate h.nextId⟩

/-- Uses up the next identity. -/
def skip (h : Heap) : Heap :=
  ⟨h.objects.push none⟩

/-- Replaces the slots of an object. -/
def setSlots (h : Heap) (o : ObjectId) (s : Slots) : Heap :=
  ⟨h.objects.modify o fun x => x.map fun x => { x with slots := s }⟩

/-! ## What the operations do to the view by identity -/

@[simp] theorem nextId_add (h : Heap) (x : Object) : (h.add x).nextId = h.nextId + 1 := by
  simp [add, nextId]

@[simp] theorem nextId_skip (h : Heap) : h.skip.nextId = h.nextId + 1 := by
  simp [skip, nextId]

@[simp] theorem nextId_setSlots (h : Heap) (o : ObjectId) (s : Slots) :
    (h.setSlots o s).nextId = h.nextId := by
  simp [setSlots, nextId]

/-- An added object is found at the identity that was the next one. -/
@[simp] theorem get?_add_nextId (h : Heap) (x : Object) : (h.add x).get? h.nextId = some x := by
  simp [add, get?, nextId]

/-- Adding an object leaves the older ones as they were. -/
theorem get?_add_of_lt (h : Heap) (x : Object) {o : ObjectId} (older : o < h.nextId) :
    (h.add x).get? o = h.get? o := by
  have hne : o ≠ h.objects.size := Nat.ne_of_lt older
  simp [add, get?, Array.getElem?_push, hne]

/-- Using up an identity leaves all objects as they were. -/
@[simp] theorem get?_skip (h : Heap) (o : ObjectId) : h.skip.get? o = h.get? o := by
  by_cases ho : o = h.objects.size
  · simp [skip, get?, ho]
  · simp [skip, get?, Array.getElem?_push, ho]

/-- Replacing slots changes one object, and of that object the slots only. -/
theorem get?_setSlots (h : Heap) (o : ObjectId) (s : Slots) (x : ObjectId) :
    (h.setSlots o s).get? x =
      if o = x then (h.get? x).map fun y => { y with slots := s } else h.get? x := by
  by_cases ho : o = x
  · subst ho
    cases hx : h.objects[o]? <;> simp [setSlots, get?, Array.getElem?_modify, hx]
  · simp [setSlots, get?, Array.getElem?_modify, ho]

/-- Replacing slots changes no payload. -/
@[simp] theorem payload_setSlots (h : Heap) (o : ObjectId) (s : Slots) (x : ObjectId) :
    (h.setSlots o s).payload x = h.payload x := by
  by_cases ho : o = x
  · simp only [payload, get?_setSlots, ho, if_true]
    cases h.get? x <;> rfl
  · simp only [payload, get?_setSlots, ho, if_false]

end Heap

end Prototypal
