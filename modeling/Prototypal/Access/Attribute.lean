import Prototypal.Access.Check

/-!
# Attributes: get, set and delete

Getting, setting and deleting attributes of an object, and the questions about them.  The first
three are checked; the questions are not.
-/

namespace Prototypal

/-- The value of an attribute along the ancestors, Null if there is none. -/
def getAttribute (o : ObjectId) (k : Key) : Run ObjectId :=
  checked o (.get k) some do
    let found ← lookup o k
    note (.read o k found.isSome)
    return found.getD nullId

/-- Stores an own attribute. -/
def setAttribute (o : ObjectId) (k : Key) (v : ObjectId) : Run Unit :=
  checked o (.set k v) (fun _ => none) (slotSet o k v)

/-- Removes an own attribute and gives back its value, Null if there was none. -/
def deleteAttribute (o : ObjectId) (k : Key) : Run ObjectId :=
  checked o (.delete k) some (slotDelete o k)

/-- Whether an object has an own attribute. -/
def hasAttribute (o : ObjectId) (k : Key) : Run Bool :=
  return (← slotsOf o).has k

/-- Whether an attribute resolves along the ancestors. -/
def respondsTo (o : ObjectId) (k : Key) : Run Bool :=
  return (← resolve o k).isSome

/-- The value of an attribute above the own one, Null if there is none. -/
def attributeAbove (o : ObjectId) (k : Key) : Run ObjectId :=
  return (← lookupAbove o k).getD nullId

end Prototypal
